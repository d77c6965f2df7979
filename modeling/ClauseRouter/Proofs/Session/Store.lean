import ClauseRouter.Proofs.Dict
import ClauseRouter.Session.Store

/-!
# What a session store answers

A request for the session of an identifier has two outcomes: the stored session, if it is live, or a new
one.  Each is told by what stands under every identifier afterwards.

* `Store.IsIdentifier` — sixteen hexadecimal digits in capitals; all that is ever drawn is such
  (`isIdentifier_spell`), and is not in use (`Store.fresh_of_draw?`).
* `Store.Live` — a session is stored under an identifier and has not expired.
* `Store.Finds`, `Store.Opens` — what it is to answer with a live session, and with a new one.
* `Store.obtain?_of_live`, `Store.obtain?_of_not_live` — which of the two it is.
* `Store.get?_of_obtain?_other` — sessions that were not asked for stay.
* `Store.get?_sweep`, `Store.get?_update` — the sessions that are left, and the one that is changed.
-/

namespace ClauseRouter.Store

/-- In a history that goes on by one more thing, something is the last thing or it was there before. -/
lemma append_singleton_eq_iff {α : Type} {history before later : List α} {last a : α} :
    history ++ [last] = before ++ a :: later ↔
      (later = [] ∧ history = before ∧ last = a) ∨
        ∃ init, later = init ++ [last] ∧ history = before ++ a :: init := by
  constructor
  case mp =>
    intro split
    rcases List.eq_nil_or_concat later with rfl | ⟨init, final, rfl⟩
    · obtain ⟨same, ends⟩ := List.append_inj' split rfl
      exact .inl ⟨rfl, same, List.singleton_inj.mp ends⟩
    · rw [List.concat_eq_append, ← List.cons_append, ← List.append_assoc] at split
      obtain ⟨same, ends⟩ := List.append_inj' split rfl
      rw [List.singleton_inj.mp ends]
      exact .inr ⟨init, List.concat_eq_append, same⟩
  case mpr =>
    rintro (⟨rfl, rfl, rfl⟩ | ⟨init, rfl, rfl⟩)
    · rfl
    · simp

variable {store : Store}

/-! ## Identifiers -/

/-- What the identifier of a session looks like. -/
structure IsIdentifier (id : Bytes) : Prop where
  length : id.length = idLength
  digits : ∀ b ∈ id, Bytes.isDigit b ∨ (0x41 ≤ b ∧ b ≤ 0x46)

lemma digit_hexDigit : ∀ n < 16,
    Bytes.isDigit (hexDigit n) ∨ (0x41 ≤ hexDigit n ∧ hexDigit n ≤ 0x46) := by
  decide

lemma length_hexDigits (n count : Nat) : (hexDigits n count).length = count := by
  induction count generalizing n with
  | zero => rfl
  | succ count ih => simp [hexDigits, ih]

lemma digit_of_mem_hexDigits {n count : Nat} {b : UInt8} (mem : b ∈ hexDigits n count) :
    Bytes.isDigit b ∨ (0x41 ≤ b ∧ b ≤ 0x46) := by
  induction count generalizing n with
  | zero => simp [hexDigits] at mem
  | succ count ih =>
      rw [hexDigits, List.mem_append, List.mem_singleton] at mem
      rcases mem with mem | rfl
      · exact ih mem
      · exact digit_hexDigit _ (Nat.mod_lt _ (by decide))

/-- Every word spells an identifier. -/
lemma isIdentifier_spell (word : UInt64) : IsIdentifier (spell word) :=
  ⟨length_hexDigits _ _, fun _ => digit_of_mem_hexDigits⟩

/-- **What is drawn is an identifier that is not in use.** -/
lemma fresh_of_draw? {words rest : List UInt64} {id : Bytes}
    (drawn : store.draw? words = some (id, rest)) :
    IsIdentifier id ∧ store.sessions.get? id = none := by
  induction words with
  | nil => simp [draw?] at drawn
  | cons word words ih =>
      rw [draw?] at drawn
      split at drawn
      case isTrue => exact ih drawn
      case isFalse unused =>
        rw [Option.some.injEq, Prod.mk.injEq] at drawn
        rw [← drawn.1]
        exact ⟨isIdentifier_spell word, by simpa [Dict.contains] using unused⟩

/-- A source with a word whose identifier is not in use is enough to draw from. -/
lemma exists_draw? {words : List UInt64} {word : UInt64} (mem : word ∈ words)
    (unused : store.sessions.get? (spell word) = none) :
    ∃ id rest, store.draw? words = some (id, rest) := by
  induction words with
  | nil => cases mem
  | cons first words ih =>
      rw [draw?]
      split
      case isFalse => exact ⟨_, _, rfl⟩
      case isTrue used =>
        rcases List.mem_cons.mp mem with rfl | mem
        · simp [Dict.contains, unused] at used
        · exact ih mem

/-! ## One session at a time -/

/-- A session is stored under an identifier and has not expired. -/
def Live (store : Store) (now : UInt64) (id : Bytes) (s : Session) : Prop :=
  store.sessions.get? id = some s ∧ s.expired now store.timeout = false

/-- **A sweep drops exactly the expired sessions.** -/
lemma get?_sweep (store : Store) (now : UInt64) (id : Bytes) :
    (store.sweep now).sessions.get? id
      = (store.sessions.get? id).filter fun s => !s.expired now store.timeout :=
  Dict.get?_filter _ _ id

/-- So what a sweep leaves is what is live. -/
lemma get?_sweep_eq_some {now : UInt64} {id : Bytes} {s : Session} :
    (store.sweep now).sessions.get? id = some s ↔ store.Live now id s := by
  rw [get?_sweep, Option.filter_eq_some_iff, Live]
  simp

/-- A change of one session leaves the others alone. -/
lemma get?_update (store : Store) (id other : Bytes) (change : Session → Session) :
    (store.update id change).sessions.get? other
      = if other = id then (store.sessions.get? id).map change else store.sessions.get? other := by
  cases stored : store.sessions.get? id with
  | none =>
      have same : store.update id change = store := by simp only [update, stored]
      rw [same]
      by_cases asked : other = id
      · simp [asked, stored]
      · simp [asked]
  | some s =>
      simp only [update, stored]
      exact Dict.get?_set _ _ _ _

/-- After a change of a stored session, a session that is there is that one, changed, or another. -/
lemma of_get?_update {id other : Bytes} {change : Session → Session} {old s : Session}
    (stored : store.sessions.get? id = some old)
    (there : (store.update id change).sessions.get? other = some s) :
    (other = id ∧ s = change old) ∨ (other ≠ id ∧ store.sessions.get? other = some s) := by
  rw [get?_update, stored] at there
  split at there
  case isTrue same => exact .inl ⟨same, (Option.some.inj there).symm⟩
  case isFalse differs => exact .inr ⟨differs, there⟩

@[simp] lemma timeout_update (store : Store) (id : Bytes) (change : Session → Session) :
    (store.update id change).timeout = store.timeout := by
  rw [update]
  split <;> rfl

/-! ## Asking for a session -/

/-- A store without the session of an identifier. -/
def without (store : Store) (id : Bytes) : Store :=
  { store with sessions := store.sessions.erase id }

/-- **The answer is a stored session,** whose access is noted; nothing else changes. -/
structure Finds (store : Store) (now : UInt64) (id : Bytes) (s : Session) (answer : Obtained) :
    Prop where
  isOld : answer.isNew = false
  same : answer.id = id
  refreshed : answer.store.sessions.get? id = some { s with lastAccess := now }
  others : ∀ other, other ≠ id → answer.store.sessions.get? other = store.sessions.get? other
  size : answer.store.size = store.size
  timeout : answer.store.timeout = store.timeout

/-- **The answer is a new session without values,** under an identifier that none of the remaining
sessions has.  What was stored under the identifier that was asked for is gone. -/
structure Opens (store : Store) (now : UInt64) (id : Bytes) (answer : Obtained) : Prop where
  isNew : answer.isNew = true
  identifier : IsIdentifier answer.id
  fresh : (store.without id).sessions.get? answer.id = none
  empty : answer.store.sessions.get? answer.id = some ⟨answer.id, now, .empty⟩
  dropped : answer.id ≠ id → answer.store.sessions.get? id = none
  others : ∀ other, other ≠ id → other ≠ answer.id →
    answer.store.sessions.get? other = store.sessions.get? other
  size : answer.store.size = if store.sessions.contains id then store.size else store.size + 1
  timeout : answer.store.timeout = store.timeout

/-- **A live session is what the store answers with.** -/
lemma obtain?_of_live {now : UInt64} {id : Bytes} {s : Session} (live : store.Live now id s)
    (words : List UInt64) :
    ∃ answer, store.obtain? now words id = some answer ∧ store.Finds now id s answer := by
  obtain ⟨stored, fresh⟩ := live
  let refreshed : Session := { s with lastAccess := now }
  refine ⟨⟨id, false, { store with sessions := store.sessions.set id refreshed }, words⟩, ?_, ?_⟩
  · simp only [obtain?, stored, fresh, Bool.false_eq_true, if_false, refreshed]
  refine ⟨rfl, rfl, ?_, fun other differs => ?_, ?_, rfl⟩
  · simp [Dict.get?_set, refreshed]
  · simp [Dict.get?_set, differs]
  · simp [size, Dict.size_set, Dict.contains, stored]

/-- Where no live session is stored, the store drops what it has and makes a session. -/
lemma obtain?_eq_create? {now : UInt64} {id : Bytes} (stale : ¬ ∃ s, store.Live now id s)
    (words : List UInt64) :
    store.obtain? now words id = (store.without id).create? now words := by
  rw [obtain?]
  cases stored : store.sessions.get? id with
  | none => rw [without, Dict.erase_of_get?_eq_none _ stored]
  | some s =>
      have expired : s.expired now store.timeout = true := by
        by_contra fresh
        exact stale ⟨s, stored, by simpa using fresh⟩
      simp only [expired, if_true]
      rfl

/-- **Otherwise it answers with a new session,** if an identifier can be drawn for it. -/
lemma obtain?_of_not_live {now : UInt64} {id : Bytes} (stale : ¬ ∃ s, store.Live now id s)
    {words rest : List UInt64} {fresh : Bytes}
    (drawn : (store.without id).draw? words = some (fresh, rest)) :
    ∃ answer, store.obtain? now words id = some answer ∧ answer.id = fresh ∧
      store.Opens now id answer := by
  obtain ⟨identifier, unused⟩ := fresh_of_draw? drawn
  refine ⟨_, by rw [obtain?_eq_create? stale, create?, drawn]; rfl, rfl, ?_⟩
  refine ⟨rfl, identifier, unused, ?_, fun differs => ?_, fun other notAsked notFresh => ?_, ?_, rfl⟩
  · simp [Dict.get?_set]
  · simp [Dict.get?_set, differs.symm, without, Dict.get?_erase]
  · simp [Dict.get?_set, notFresh, without, Dict.get?_erase, notAsked]
  · cases there : store.sessions.contains id with
    | true => exact Dict.size_erase_set _ _ there unused
    | false =>
        have absent : store.sessions.get? id = none := by simpa [Dict.contains] using there
        rw [without, Dict.erase_of_get?_eq_none _ absent] at unused ⊢
        simp [size, Dict.size_set, Dict.contains, unused]

/-- Whatever the store answers is one of the two. -/
lemma finds_or_opens {now : UInt64} {words : List UInt64} {id : Bytes} {answer : Obtained}
    (h : store.obtain? now words id = some answer) :
    (∃ s, store.Live now id s ∧ store.Finds now id s answer) ∨
      ((¬ ∃ s, store.Live now id s) ∧ store.Opens now id answer) := by
  by_cases live : ∃ s, store.Live now id s
  · obtain ⟨s, live⟩ := live
    obtain ⟨found, same, finds⟩ := obtain?_of_live live words
    obtain rfl : found = answer := Option.some.inj (same.symm.trans h)
    exact .inl ⟨s, live, finds⟩
  · right
    cases drawn : (store.without id).draw? words with
    | none =>
        rw [obtain?_eq_create? live, create?, drawn] at h
        cases h
    | some pair =>
        obtain ⟨opened, same, -, opens⟩ := obtain?_of_not_live live drawn
        obtain rfl : opened = answer := Option.some.inj (same.symm.trans h)
        exact ⟨live, opens⟩

lemma timeout_of_obtain? {now : UInt64} {words : List UInt64} {asked : Bytes} {answer : Obtained}
    (h : store.obtain? now words asked = some answer) : answer.store.timeout = store.timeout := by
  rcases finds_or_opens h with ⟨_, _, finds⟩ | ⟨_, opens⟩
  · exact finds.timeout
  · exact opens.timeout

/-- **To ask for one session leaves the others alone.** -/
lemma get?_of_obtain?_other {now : UInt64} {words : List UInt64} {asked id : Bytes} {s : Session}
    {answer : Obtained} (h : store.obtain? now words asked = some answer) (other : id ≠ asked)
    (stored : store.sessions.get? id = some s) : answer.store.sessions.get? id = some s := by
  rcases finds_or_opens h with ⟨_, _, finds⟩ | ⟨_, opens⟩
  · rw [finds.others id other, stored]
  · have notNew : id ≠ answer.id := by
      intro same
      have unused := opens.fresh
      rw [without, Dict.get?_erase, ← same, if_neg other, stored] at unused
      cases unused
    rw [opens.others id other notNew, stored]

end ClauseRouter.Store
