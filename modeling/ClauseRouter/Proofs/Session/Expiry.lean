import ClauseRouter.Proofs.Session.Store

/-!
# When a session expires

A session is **overdue** when the clock has passed its last access by more than the timeout, counted
exactly.  The test `Session.expired` counts modulo 2^64: a session whose last access lies later than the
clock, because the clock was put back, counts as idle for almost 2^64 seconds, and is dropped at once.

* `Session.expired_iff` — what expires is overdue, or is ahead of the clock by less than what is left
  of 2^64 above the timeout.
* `Store.Punctual` — a session expires when it is overdue, and neither a sweep nor a request drops it
  before.
* `Store.punctual_iff` — this is so of the sessions that are not ahead of the clock, and of no other.
-/

namespace ClauseRouter

namespace Session

variable (s : Session) (now timeout : UInt64)

/-- The session has been idle for longer than the timeout, by exact arithmetic. -/
def Overdue : Prop := s.lastAccess.toNat + timeout.toNat < now.toNat

/-- The last access is later than the clock, and not so much later that the difference modulo 2^64 is
within the timeout. -/
def Ahead : Prop :=
  now.toNat < s.lastAccess.toNat ∧ s.lastAccess.toNat + timeout.toNat < now.toNat + UInt64.size

instance : Decidable (s.Overdue now timeout) := inferInstanceAs (Decidable (_ < _))

instance : Decidable (s.Ahead now timeout) := inferInstanceAs (Decidable (_ ∧ _))

/-- **What expires** is overdue or ahead of the clock. -/
lemma expired_iff :
    s.expired now timeout = true ↔ s.Overdue now timeout ∨ s.Ahead now timeout := by
  have idle : (now - s.lastAccess).toNat
      = (2 ^ 64 - s.lastAccess.toNat + now.toNat) % 2 ^ 64 := UInt64.toNat_sub _ _
  have readable : s.lastAccess.toNat < 2 ^ 64 := s.lastAccess.toNat_lt
  have reached : now.toNat < 2 ^ 64 := now.toNat_lt
  have bounded : timeout.toNat < 2 ^ 64 := timeout.toNat_lt
  rw [expired, decide_eq_true_iff, gt_iff_lt, UInt64.lt_iff_toNat_lt, idle]
  unfold Overdue Ahead UInt64.size
  omega

/-- The test is exact for a session that is not ahead of the clock. -/
lemma expired_iff_overdue {s : Session} {now timeout : UInt64}
    (notAhead : ¬ s.Ahead now timeout) : s.expired now timeout = true ↔ s.Overdue now timeout := by
  rw [expired_iff]
  simp only [notAhead, or_false]

/-- A session whose last access the clock has reached is not ahead. -/
lemma not_ahead_of_le {s : Session} {now : UInt64} (reached : s.lastAccess.toNat ≤ now.toNat)
    (timeout : UInt64) : ¬ s.Ahead now timeout := by
  intro ahead
  have := ahead.1
  omega

/-- A session that is ahead of the clock is not overdue. -/
lemma not_overdue_of_ahead {s : Session} {now timeout : UInt64} (ahead : s.Ahead now timeout) :
    ¬ s.Overdue now timeout := by
  have := ahead.1
  unfold Overdue
  omega

end Session

namespace Store

variable {store : Store} {now : UInt64} {id : Bytes} {s : Session}

/-- **A session is not dropped before its time:** it expires when it is overdue, and as long as it is
not, it outlasts every sweep and every request, whether for itself or for another session. -/
structure Punctual (store : Store) (now : UInt64) (id : Bytes) (s : Session) : Prop where
  expires : s.expired now store.timeout = true ↔ s.Overdue now store.timeout
  swept : ¬ s.Overdue now store.timeout → (store.sweep now).sessions.get? id = some s
  asked : ¬ s.Overdue now store.timeout → ∀ words answer,
    store.obtain? now words id = some answer →
      answer.isNew = false ∧ answer.id = id ∧
        answer.store.sessions.get? id = some { s with lastAccess := now }
  others : ∀ asked words answer, id ≠ asked → store.obtain? now words asked = some answer →
    answer.store.sessions.get? id = some s

/-- **Sessions are dropped in time exactly if they are not ahead of the clock.** -/
theorem punctual_iff (stored : store.sessions.get? id = some s) (now : UInt64) :
    store.Punctual now id s ↔ ¬ s.Ahead now store.timeout := by
  constructor
  case mp =>
    intro punctual ahead
    have expired : s.expired now store.timeout = true := (s.expired_iff _ _).mpr (.inr ahead)
    exact Session.not_overdue_of_ahead ahead (punctual.expires.mp expired)
  case mpr =>
    intro notAhead
    have exact := Session.expired_iff_overdue notAhead
    refine ⟨exact, fun inTime => ?_, fun inTime words answer h => ?_, fun asked words answer other h =>
      get?_of_obtain?_other h other stored⟩
    case refine_1 =>
      have fresh : s.expired now store.timeout = false := by simpa using exact.not.mpr inTime
      rw [get?_sweep, stored]
      simp [Option.filter, fresh]
    case refine_2 =>
      have fresh : s.expired now store.timeout = false := by simpa using exact.not.mpr inTime
      obtain ⟨found, same, finds⟩ := obtain?_of_live ⟨stored, fresh⟩ words
      obtain rfl : found = answer := Option.some.inj (same.symm.trans h)
      exact ⟨finds.isOld, finds.same, finds.refreshed⟩

/-- A session that was last asked for at second 700 is still there at second 1000 if the timeout is
300. -/
theorem punctual_at_timeout :
    Punctual ⟨Dict.empty.set (spell 7) ⟨spell 7, 700, .empty⟩, 300⟩ 1000 (spell 7)
      ⟨spell 7, 700, .empty⟩ :=
  (punctual_iff (by simp [Dict.get?_set]) 1000).mpr (by decide)

/-- A session that was last asked for at second 1001 is dropped when the clock is put back to 1000. -/
theorem not_punctual_of_clock_put_back :
    (Dict.empty.set (spell 7) (⟨spell 7, 1001, .empty⟩ : Session)).get? (spell 7)
        = some ⟨spell 7, 1001, .empty⟩ ∧
      ¬ Punctual ⟨Dict.empty.set (spell 7) ⟨spell 7, 1001, .empty⟩, 300⟩ 1000 (spell 7)
        ⟨spell 7, 1001, .empty⟩ := by
  refine ⟨by simp [Dict.get?_set], fun punctual => ?_⟩
  have overdue : Session.Overdue ⟨spell 7, 1001, .empty⟩ 1000 300 :=
    punctual.expires.mp (by decide)
  revert overdue
  decide

end Store

end ClauseRouter
