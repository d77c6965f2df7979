import Mathlib.Data.Finset.Card
import Mathlib.Data.List.Nodup
import Mathlib.Tactic.Lemma
import ClauseRouter.Dict

/-!
# Dictionaries by their values

A dictionary is told by what stands under each key.  Here are the values under the keys for every
operation that puts entries, and the lemma that makes two dictionaries equal.

* `Dict.ext_get?` — dictionaries that agree on every key are the same.
* `Dict.get?_set`, `Dict.get?_putAll`, `Dict.get?_overlay` — where a value comes from.
* `Dict.get?_filter`, `Dict.get?_erase`, `Dict.exists_toList_erase` — what is left.
* `Dict.size_set`, `Dict.size_erase_set` — how many keys there are.
* `Dict.ofList_perm` — a dictionary is made again from its entries, in whatever order they come.
-/

namespace ClauseRouter

variable {β : Type}

lemma lookup_cons_ite (k key : Bytes) (value : β) (entries : List (Bytes × β)) :
    ((k, value) :: entries).lookup key = if key = k then some value else entries.lookup key := by
  rw [List.lookup_cons]
  by_cases same : key = k
  · simp [same]
  · have differs : (key == k) = false := by simpa using same
    simp [differs, same]

/-- What is found under a key is the value of the first entry of that key. -/
lemma lookup_eq_find? (entries : List (Bytes × β)) (key : Bytes) :
    entries.lookup key = (entries.find? fun entry => entry.1 == key).map Prod.snd := by
  induction entries with
  | nil => rfl
  | cons entry entries ih =>
      obtain ⟨k, v⟩ := entry
      rw [lookup_cons_ite, List.find?_cons]
      split
      case isTrue same => simp [same]
      case isFalse differs =>
        have other : (k == key) = false := beq_eq_false_iff_ne.mpr fun same => differs same.symm
        rw [other]
        exact ih

/-- Nothing is found under a key that no entry has. -/
lemma lookup_eq_none {entries : List (Bytes × β)} {key : Bytes}
    (others : ∀ entry ∈ entries, entry.1 ≠ key) : entries.lookup key = none :=
  List.lookup_eq_none_iff.mpr fun entry mem => bne_iff_ne.mpr (others entry mem).symm

/-- Where no key comes twice, a value is found under a key exactly if they make up an entry. -/
lemma lookup_eq_some_iff_mem {entries : List (Bytes × β)} (distinct : (entries.map Prod.fst).Nodup)
    {key : Bytes} {value : β} : entries.lookup key = some value ↔ (key, value) ∈ entries := by
  induction entries with
  | nil => simp
  | cons entry entries ih =>
      obtain ⟨k, v⟩ := entry
      obtain ⟨fresh, distinct⟩ := List.nodup_cons.mp distinct
      rw [lookup_cons_ite]
      split
      case isTrue same =>
        subst same
        have other : (key, value) ∉ entries := fun mem =>
          fresh (List.mem_map.mpr ⟨(key, value), mem, rfl⟩)
        simp [other, eq_comm]
      case isFalse differs => simp [differs, ih distinct]

/-- Where no key comes twice, the order of the entries does not matter. -/
lemma lookup_perm {entries other : List (Bytes × β)} (distinct : (entries.map Prod.fst).Nodup)
    (perm : other.Perm entries) (key : Bytes) : other.lookup key = entries.lookup key := by
  have distinct' : (other.map Prod.fst).Nodup := (perm.map _).nodup_iff.mpr distinct
  ext value
  rw [lookup_eq_some_iff_mem distinct, lookup_eq_some_iff_mem distinct', perm.mem_iff]

namespace Dict

variable (d : Dict β)

lemma keys_nodup : (d.entries.map Prod.fst).Nodup := by
  rw [List.nodup_iff_pairwise_ne, List.pairwise_map]
  refine d.increasing.imp fun below same => ?_
  rw [same] at below
  exact List.lt_irrefl _ below

lemma get?_eq_some {key : Bytes} {value : β} :
    d.get? key = some value ↔ (key, value) ∈ d.entries :=
  lookup_eq_some_iff_mem d.keys_nodup

/-- **Dictionaries that agree on every key are the same.** -/
lemma ext_get? {d d' : Dict β} (agree : ∀ key, d.get? key = d'.get? key) : d = d' := by
  have perm : d.entries.Perm d'.entries := by
    rw [List.perm_ext_iff_of_nodup d.keys_nodup.of_map d'.keys_nodup.of_map]
    rintro ⟨key, value⟩
    rw [← get?_eq_some, ← get?_eq_some, agree]
  have same : d.entries = d'.entries :=
    perm.eq_of_pairwise (fun _ _ _ _ below above => absurd (List.lt_trans below above)
      (List.lt_irrefl _)) d.increasing d'.increasing
  obtain ⟨entries, increasing⟩ := d
  obtain ⟨entries', increasing'⟩ := d'
  cases same
  rfl

@[simp] lemma get?_empty (key : Bytes) : (empty : Dict β).get? key = none := rfl

lemma lookup_insertEntry (key other : Bytes) (value : β) (entries : List (Bytes × β)) :
    (insertEntry key value entries).lookup other
      = if other = key then some value else entries.lookup other := by
  induction entries with
  | nil => rw [insertEntry, lookup_cons_ite]
  | cons entry entries ih =>
      obtain ⟨k, v⟩ := entry
      rw [insertEntry]
      split
      case isTrue => rw [lookup_cons_ite]
      case isFalse notBefore =>
        split
        case isTrue after =>
          rw [lookup_cons_ite, lookup_cons_ite, ih]
          split
          case isTrue first =>
            -- the first key is below the new one, so it is another key
            have differs : other ≠ key := fun same =>
              List.lt_irrefl key (same.symm.trans first ▸ after)
            rw [if_neg differs]
          case isFalse => rfl
        case isFalse notAfter =>
          have same : key = k :=
            List.le_antisymm (List.not_lt.1 notAfter) (List.not_lt.1 notBefore)
          rw [lookup_cons_ite, lookup_cons_ite, ← same]
          split <;> rfl

/-- Under the key that was put last stands its value, and under every other key what stood there. -/
lemma get?_set (key other : Bytes) (value : β) :
    (d.set key value).get? other = if other = key then some value else d.get? other :=
  lookup_insertEntry key other value d.entries

/-- Of the entries that are put the last one of a key counts, and then what stood there before. -/
lemma get?_putAll (entries : List (Bytes × β)) (key : Bytes) :
    (d.putAll entries).get? key = (entries.reverse.lookup key).or (d.get? key) := by
  induction entries generalizing d with
  | nil => rfl
  | cons entry entries ih =>
      obtain ⟨k, v⟩ := entry
      have put : (d.putAll ((k, v) :: entries)) = (d.set k v).putAll entries := rfl
      rw [put, ih, get?_set, List.reverse_cons, List.lookup_append, Option.or_assoc,
        lookup_cons_ite]
      split <;> rfl

lemma get?_ofList (entries : List (Bytes × β)) (key : Bytes) :
    (ofList entries).get? key = entries.reverse.lookup key := by
  rw [ofList, get?_putAll, get?_empty, Option.or_none]

/-- **A value of one dictionary laid over another** is that of the upper one, if it has one. -/
lemma get?_overlay (lower upper : Dict β) (key : Bytes) :
    (lower.overlay upper).get? key = (upper.get? key).or (lower.get? key) := by
  rw [overlay, get?_putAll, lookup_perm upper.keys_nodup (List.reverse_perm _)]
  rfl

/-- The entries of a dictionary make it up again, in whatever order they come. -/
lemma ofList_perm {d : Dict β} {order : List (Bytes × β)} (perm : order.Perm d.toList) :
    ofList order = d := by
  refine ext_get? fun key => ?_
  rw [get?_ofList]
  exact lookup_perm d.keys_nodup ((List.reverse_perm order).trans perm) key

/-- Of entries whose keys increase, none has a greater key than the last one. -/
lemma le_getLast? {entries : List (Bytes × β)} (increase : KeysIncrease entries)
    {last : Bytes × β} (ends : entries.getLast? = some last) :
    ∀ entry ∈ entries, entry.1 ≤ last.1 := by
  obtain ⟨front, rfl⟩ := List.getLast?_eq_some_iff.mp ends
  obtain ⟨-, -, below⟩ := List.pairwise_append.mp increase
  intro entry mem
  rcases List.mem_append.mp mem with mem | mem
  · exact List.le_of_lt (below entry mem last (List.mem_singleton.mpr rfl))
  · rw [List.mem_singleton.mp mem]
    exact List.le_refl _

/-! ## What is left -/

/-- What stands under a key is left if it passes the test. -/
lemma get?_filter (keep : Bytes → β → Bool) (key : Bytes) :
    (d.filter keep).get? key = (d.get? key).filter (keep key) := by
  ext value
  rw [get?_eq_some, Option.filter_eq_some_iff, get?_eq_some]
  exact List.mem_filter

/-- Under the key that is dropped stands nothing, and under every other key what stood there. -/
lemma get?_erase (key other : Bytes) :
    (d.erase key).get? other = if other = key then none else d.get? other := by
  rw [erase, get?_filter]
  split
  case isTrue same => cases d.get? other <;> simp [Option.filter, same]
  case isFalse differs => cases d.get? other <;> simp [Option.filter, differs]

/-- To drop a key that is not there changes nothing. -/
lemma erase_of_get?_eq_none {key : Bytes} (absent : d.get? key = none) : d.erase key = d := by
  refine ext_get? fun other => ?_
  rw [get?_erase]
  split
  case isTrue same => rw [same, absent]
  case isFalse => rfl

/-- To put under a key what stands there changes nothing. -/
lemma set_of_get?_eq_some {key : Bytes} {value : β} (there : d.get? key = some value) :
    d.set key value = d := by
  refine ext_get? fun other => ?_
  rw [get?_set]
  split
  case isTrue same => rw [same, there]
  case isFalse => rfl

/-- The entry of a key that is dropped is missing from the others, which stay in their order. -/
lemma exists_toList_erase {key : Bytes} {value : β} (there : d.get? key = some value) :
    ∃ before after, d.toList = before ++ (key, value) :: after ∧
      (d.erase key).toList = before ++ after := by
  obtain ⟨before, after, split⟩ := List.append_of_mem (d.get?_eq_some.mp there)
  have distinct := d.keys_nodup
  rw [split, List.map_append, List.map_cons, List.nodup_middle, List.nodup_cons, List.mem_append,
    List.mem_map, List.mem_map] at distinct
  have others : ∀ entry ∈ before ++ after, (entry.1 != key) = true := by
    intro entry mem
    rw [bne_iff_ne]
    exact fun same => distinct.1 ((List.mem_append.mp mem).imp (⟨entry, ·, same⟩) (⟨entry, ·, same⟩))
  have kept : (before ++ after).filter (fun entry => entry.1 != key) = before ++ after :=
    List.filter_eq_self.mpr others
  refine ⟨before, after, split, ?_⟩
  rw [← kept]
  simp [erase, filter, toList, split]

/-! ## How many keys there are -/

/-- The keys, as a set. -/
def keys (d : Dict β) : Finset Bytes := (d.entries.map Prod.fst).toFinset

lemma mem_keys {key : Bytes} : key ∈ d.keys ↔ d.contains key := by
  rw [keys, List.mem_toFinset, contains, Option.isSome_iff_exists]
  simp [get?_eq_some]

/-- A dictionary is as large as its set of keys. -/
lemma size_eq_card : d.size = d.keys.card := by
  rw [keys, List.toFinset_card_of_nodup d.keys_nodup, List.length_map, size]

/-- A key that is put is one key more, unless it was there. -/
lemma size_set (key : Bytes) (value : β) :
    (d.set key value).size = if d.contains key then d.size else d.size + 1 := by
  have put : (d.set key value).keys = insert key d.keys := by
    ext other
    rw [Finset.mem_insert, mem_keys, mem_keys, contains, get?_set, contains]
    split <;> simp_all
  rw [size_eq_card, size_eq_card, put, Finset.card_insert_eq_ite]
  simp only [mem_keys]

/-- Another key in place of one that was there: there are as many keys as before. -/
lemma size_erase_set {key other : Bytes} (value : β) (there : d.contains key)
    (fresh : (d.erase key).get? other = none) : ((d.erase key).set other value).size = d.size := by
  -- to put the first key back is to put it in place of itself
  have back : (d.erase key).set key value = d.set key value := by
    refine ext_get? fun k => ?_
    rw [get?_set, get?_set, get?_erase]
    split <;> rfl
  have absent : (d.erase key).contains key = false := by simp [contains, get?_erase]
  have fresh : (d.erase key).contains other = false := by simp [contains, fresh]
  have counted := congrArg size back
  rw [size_set, size_set, absent, there] at counted
  rw [size_set, fresh]
  simpa using counted

end Dict

end ClauseRouter
