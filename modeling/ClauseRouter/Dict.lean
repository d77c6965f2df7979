import ClauseRouter.Bytes

/-!
# Dictionaries with byte string keys

Headers, parameters, settings and session values are all finite maps from byte strings, and the
order in which their entries are written out is the byte order of the keys.  A `Dict` is therefore
a list of entries whose keys increase strictly; that is part of the type.

* `Dict.get?` — the value under a key; two dictionaries are the same when they agree on every key.
* `Dict.set`, `Dict.erase` — put a value under a key, drop a key.
* `Dict.overlay` — one dictionary laid over another.
-/

namespace ClauseRouter

/-- Entries in strictly increasing order of their keys. -/
def KeysIncrease {β : Type} (entries : List (Bytes × β)) : Prop :=
  entries.Pairwise fun a b => a.1 < b.1

/-- A finite map from byte strings, its entries in the byte order of their keys. -/
structure Dict (β : Type) where
  /-- The keys with their values, each key once. -/
  entries : List (Bytes × β)
  /-- The keys increase strictly. -/
  increasing : KeysIncrease entries

namespace Dict

variable {β : Type}

/-- The dictionary without entries. -/
def empty : Dict β := ⟨[], List.Pairwise.nil⟩

instance : Inhabited (Dict β) := ⟨empty⟩

instance : EmptyCollection (Dict β) := ⟨empty⟩

/-- The value under a key, if there is one. -/
def get? (d : Dict β) (key : Bytes) : Option β := d.entries.lookup key

/-- Whether there is a value under a key. -/
def contains (d : Dict β) (key : Bytes) : Bool := (d.get? key).isSome

/-- The value under a key, or another one where there is none. -/
def getD (d : Dict β) (key : Bytes) (fallback : β) : β := (d.get? key).getD fallback

/-- The number of keys. -/
def size (d : Dict β) : Nat := d.entries.length

/-- The entries in the order of their keys. -/
def toList (d : Dict β) : List (Bytes × β) := d.entries

/-! ## Putting and dropping keys -/

/-- Puts an entry where its key belongs; an entry of the same key is replaced. -/
def insertEntry (key : Bytes) (value : β) : List (Bytes × β) → List (Bytes × β)
  | [] => [(key, value)]
  | (k, v) :: rest =>
    if key < k then (key, value) :: (k, v) :: rest
    else if k < key then (k, v) :: insertEntry key value rest
    else (key, value) :: rest

/-- Every key of the longer list is the new key or an old one. -/
theorem mem_insertEntry {key : Bytes} {value : β} {entry : Bytes × β} :
    ∀ {entries : List (Bytes × β)}, entry ∈ insertEntry key value entries →
      entry.1 = key ∨ entry ∈ entries
  | [], h => by
    rcases List.mem_cons.1 h with rfl | h
    · exact .inl rfl
    · exact absurd h List.not_mem_nil
  | (k, v) :: rest, h => by
    rw [insertEntry] at h
    split at h
    · rcases List.mem_cons.1 h with rfl | h
      · exact .inl rfl
      · exact .inr h
    · split at h
      · rcases List.mem_cons.1 h with rfl | h
        · exact .inr (List.mem_cons_self)
        · exact (mem_insertEntry h).imp id (List.mem_cons_of_mem _)
      · rcases List.mem_cons.1 h with rfl | h
        · exact .inl rfl
        · exact .inr (List.mem_cons_of_mem _ h)

/-- Putting an entry keeps the keys increasing. -/
theorem keysIncrease_insertEntry (key : Bytes) (value : β) :
    ∀ {entries : List (Bytes × β)}, KeysIncrease entries →
      KeysIncrease (insertEntry key value entries)
  | [], _ => List.pairwise_singleton _ _
  | (k, v) :: rest, h => by
    obtain ⟨above, tail⟩ := List.pairwise_cons.1 h
    rw [insertEntry]
    split
    case isTrue before =>
      refine List.pairwise_cons.2 ⟨fun entry member => ?_, h⟩
      rcases List.mem_cons.1 member with rfl | member
      · exact before
      · exact List.lt_trans before (above entry member)
    case isFalse notBefore =>
      split
      case isTrue after =>
        refine List.pairwise_cons.2 ⟨fun entry member => ?_, keysIncrease_insertEntry key value tail⟩
        rcases mem_insertEntry member with same | member
        · exact same ▸ after
        · exact above entry member
      case isFalse notAfter =>
        -- neither key is below the other, so the old entry had this very key
        have same : key = k :=
          List.le_antisymm (List.not_lt.1 notAfter) (List.not_lt.1 notBefore)
        exact List.pairwise_cons.2 ⟨fun entry member => same ▸ above entry member, tail⟩

/-- Puts a value under a key, in place of the value that was there. -/
def set (d : Dict β) (key : Bytes) (value : β) : Dict β :=
  ⟨insertEntry key value d.entries, keysIncrease_insertEntry key value d.increasing⟩

/-- Keeps the entries that pass a test. -/
def filter (d : Dict β) (keep : Bytes → β → Bool) : Dict β :=
  ⟨d.entries.filter fun entry => keep entry.1 entry.2, d.increasing.filter _⟩

/-- Drops a key with its value. -/
def erase (d : Dict β) (key : Bytes) : Dict β := d.filter fun k _ => k != key

/-- Puts a list of entries, one after the other: of entries with one key the last stays. -/
def putAll (d : Dict β) (entries : List (Bytes × β)) : Dict β :=
  entries.foldl (fun d entry => d.set entry.1 entry.2) d

/-- The dictionary of a list of entries; of entries with one key the last stays. -/
def ofList (entries : List (Bytes × β)) : Dict β := empty.putAll entries

/-- One dictionary laid over another: where both have a key, the upper one counts. -/
def overlay (lower upper : Dict β) : Dict β := lower.putAll upper.entries

end Dict

end ClauseRouter
