import ClauseRouter.Proofs.Session.Expiry

/-!
# A session that is used stays

While requests come and go, a store is asked for sessions, swept, and left with values by the handlers
that have been given a session.  A session outlasts all this as long as it is itself asked for often
enough, and the clock is not put back.

* `Store.Happening` — what other parties can tell of a stretch of time: who asked, and what was left.
* `Store.Course` — a stretch of time in the life of a store, by its small steps.
* `Store.NeverIdle` — whenever the session is asked for, it has been idle for at most the timeout.
* `Store.Keeps` — the invariant: **until the timeout has passed since its last access** the session is
  stored, with the values that were last left in it.
* `Store.Course.keeps` — the invariant along a course, by induction on its steps.

The invariant has the clock in its premise because a session that is not asked for may well be dropped;
only the next request for it tells that this has not happened.
-/

namespace ClauseRouter.Store

/-- What happens to the sessions of a store while requests come and go. -/
inductive Happening where
  /-- At this second, the session of an identifier was asked for. -/
  | asked (now : UInt64) (id : Bytes)
  /-- A session was left with these values. -/
  | left (id : Bytes) (values : Dict Bytes)

/-- The last access of a session, after it has been asked for or not. -/
def Happening.access (id : Bytes) (last : UInt64) : Happening → UInt64
  | .asked now named => if named = id then now else last
  | .left _ _ => last

/-- The values that a session was left with. -/
def Happening.left? (id : Bytes) : Happening → Option (Dict Bytes)
  | .asked _ _ => none
  | .left changed values => if changed = id then some values else none

/-- The last access of a session, by what has happened since an earlier one. -/
def lastAccess (id : Bytes) (start : UInt64) (happenings : List Happening) : UInt64 :=
  happenings.foldl (Happening.access id) start

/-- The values last left in a session that had none to begin with. -/
def lastLeft (id : Bytes) (happenings : List Happening) : Dict Bytes :=
  (happenings.filterMap (Happening.left? id)).getLast?.getD .empty

/-- **A session is never idle for too long:** whenever it is asked for, its last access is at most the
timeout ago. -/
def NeverIdle (id : Bytes) (timeout start : UInt64) (happenings : List Happening) : Prop :=
  ∀ before now later, happenings = before ++ .asked now id :: later →
    now.toNat ≤ (lastAccess id start before).toNat + timeout.toNat

/-- **A stretch of time in the life of a store.**  The clock does not go back. -/
inductive Course (now : UInt64) (store : Store) : List Happening → UInt64 → Store → Prop
  | start : Course now store [] now store
  | wait {happenings : List Happening} {reached later : UInt64} {after : Store} :
      Course now store happenings reached after → reached ≤ later →
        Course now store happenings later after
  | sweep {happenings : List Happening} {reached : UInt64} {after : Store} :
      Course now store happenings reached after →
        Course now store happenings reached (after.sweep reached)
  | ask {happenings : List Happening} {reached : UInt64} {after : Store} {words : List UInt64}
      {asked : Bytes} {answer : Obtained} :
      Course now store happenings reached after →
        after.obtain? reached words asked = some answer →
          Course now store (happenings ++ [.asked reached asked]) reached answer.store
  | leave {happenings : List Happening} {reached : UInt64} {after : Store} (id : Bytes)
      (values : Dict Bytes) :
      Course now store happenings reached after →
        Course now store (happenings ++ [.left id values]) reached
          (after.update id fun s => { s with values })

variable {now reached later start timeout : UInt64} {store after : Store}
  {happenings others : List Happening} {id : Bytes}

/-- One stretch of time after the other. -/
lemma Course.trans {middle : Store} (first : Course now store happenings reached middle)
    (second : Course reached middle others later after) :
    Course now store (happenings ++ others) later after := by
  induction second with
  | start => simpa using first
  | wait _ passes ih => exact ih.wait passes
  | sweep _ ih => exact ih.sweep
  | ask _ obtained ih => simpa using ih.ask obtained
  | leave id values _ ih => simpa using ih.leave id values

lemma Course.timeout_eq (course : Course now store happenings later after) :
    after.timeout = store.timeout := by
  induction course with
  | start => rfl
  | wait _ _ ih => exact ih
  | sweep _ ih => exact ih
  | ask _ obtained ih => rw [timeout_of_obtain? obtained, ih]
  | leave id values _ ih => rw [timeout_update, ih]

/-! ## What has happened, one more thing at a time -/

lemma lastAccess_append_singleton (happening : Happening) :
    lastAccess id start (happenings ++ [happening])
      = happening.access id (lastAccess id start happenings) := by
  simp [lastAccess]

lemma lastLeft_append_singleton (happening : Happening) :
    lastLeft id (happenings ++ [happening])
      = (happening.left? id).getD (lastLeft id happenings) := by
  unfold lastLeft
  cases left : happening.left? id <;> simp [left]

lemma neverIdle_nil : NeverIdle id timeout start [] := by
  intro before now later split
  simp at split

/-- A session has never been idle for too long if it had not been before, and is not now. -/
lemma neverIdle_append_singleton {happening : Happening} :
    NeverIdle id timeout start (happenings ++ [happening]) ↔
      NeverIdle id timeout start happenings ∧ ∀ now, happening = .asked now id →
        now.toNat ≤ (lastAccess id start happenings).toNat + timeout.toNat := by
  constructor
  case mp =>
    intro h
    refine ⟨fun before now later split => ?_, fun now same => ?_⟩
    · exact h before now (later ++ [happening]) (by simp [split])
    · exact h happenings now [] (by rw [same])
  case mpr =>
    rintro ⟨earlier, last⟩ before now later split
    rcases append_singleton_eq_iff.mp split with ⟨-, rfl, same⟩ | ⟨init, -, before_last⟩
    · exact last now same
    · exact earlier before now init before_last

/-! ## The invariant -/

/-- **What holds of a session that is used,** by its last access and its values. -/
structure Keeps (store : Store) (now : UInt64) (id : Bytes) (last : UInt64) (values : Dict Bytes) :
    Prop where
  reached : last ≤ now
  stored : now.toNat ≤ last.toNat + store.timeout.toNat →
    store.sessions.get? id = some ⟨id, last, values⟩

namespace Keeps

variable {last : UInt64} {values : Dict Bytes}

/-- A session that is used is live until the timeout has passed since its last access. -/
lemma live (keeps : Keeps store now id last values)
    (inTime : now.toNat ≤ last.toNat + store.timeout.toNat) :
    store.Live now id ⟨id, last, values⟩ := by
  refine ⟨keeps.stored inTime, ?_⟩
  have notAhead : ¬ Session.Ahead ⟨id, last, values⟩ now store.timeout :=
    Session.not_ahead_of_le (UInt64.le_iff_toNat_le.mp keeps.reached) _
  have notOverdue : ¬ Session.Overdue ⟨id, last, values⟩ now store.timeout := by
    show ¬ last.toNat + store.timeout.toNat < now.toNat
    omega
  simpa using (Session.expired_iff_overdue notAhead).not.mpr notOverdue

/-- As time passes, the premise only becomes harder to meet. -/
lemma wait (keeps : Keeps store now id last values) (passes : now ≤ later) :
    Keeps store later id last values where
  reached := UInt64.le_trans keeps.reached passes
  stored inTime := by
    have := UInt64.le_iff_toNat_le.mp passes
    exact keeps.stored (by omega)

lemma sweep (keeps : Keeps store now id last values) : Keeps (store.sweep now) now id last values where
  reached := keeps.reached
  stored inTime := by
    obtain ⟨stored, fresh⟩ := keeps.live inTime
    rw [get?_sweep, stored]
    simp [Option.filter, fresh]

/-- To ask for the session itself renews its access, and leaves its values alone. -/
lemma ask_self {words : List UInt64} {answer : Obtained} (keeps : Keeps store now id last values)
    (inTime : now.toNat ≤ last.toNat + store.timeout.toNat)
    (obtained : store.obtain? now words id = some answer) : Keeps answer.store now id now values := by
  obtain ⟨found, same, finds⟩ := obtain?_of_live (keeps.live inTime) words
  obtain rfl : found = answer := Option.some.inj (same.symm.trans obtained)
  exact ⟨UInt64.le_refl now, fun _ => finds.refreshed⟩

lemma ask_other {words : List UInt64} {asked : Bytes} {answer : Obtained}
    (keeps : Keeps store now id last values) (other : id ≠ asked)
    (obtained : store.obtain? now words asked = some answer) :
    Keeps answer.store now id last values := by
  refine ⟨keeps.reached, fun inTime => ?_⟩
  rw [timeout_of_obtain? obtained] at inTime
  exact get?_of_obtain?_other obtained other (keeps.stored inTime)

lemma leave_self (keeps : Keeps store now id last values) (left : Dict Bytes) :
    Keeps (store.update id fun s => { s with values := left }) now id last left := by
  refine ⟨keeps.reached, fun inTime => ?_⟩
  rw [timeout_update] at inTime
  rw [get?_update, if_pos rfl, keeps.stored inTime]
  rfl

lemma leave_other (keeps : Keeps store now id last values) {changed : Bytes} (other : id ≠ changed)
    (left : Dict Bytes) :
    Keeps (store.update changed fun s => { s with values := left }) now id last values := by
  refine ⟨keeps.reached, fun inTime => ?_⟩
  rw [timeout_update] at inTime
  rw [get?_update, if_neg other, keeps.stored inTime]

end Keeps

/-- **A session that is used keeps the values last left in it.** -/
lemma Course.keeps (course : Course now store happenings later after)
    (opened : store.sessions.get? id = some ⟨id, now, .empty⟩)
    (neverIdle : NeverIdle id store.timeout now happenings) :
    Keeps after later id (lastAccess id now happenings) (lastLeft id happenings) := by
  induction course with
  | start => exact ⟨UInt64.le_refl now, fun _ => opened⟩
  | wait _ passes ih => exact (ih neverIdle).wait passes
  | sweep _ ih => exact (ih neverIdle).sweep
  | @ask happenings reached after words asked answer course obtained ih =>
      obtain ⟨earlier, last⟩ := neverIdle_append_singleton.mp neverIdle
      have keeps := ih earlier
      rw [lastAccess_append_singleton, lastLeft_append_singleton]
      by_cases same : asked = id
      · subst same
        rw [Happening.access, if_pos rfl]
        have inTime := last reached rfl
        rw [← course.timeout_eq] at inTime
        exact keeps.ask_self inTime obtained
      · rw [Happening.access, if_neg same]
        exact keeps.ask_other (Ne.symm same) obtained
  | @leave happenings reached after changed values course ih =>
      have keeps := ih (neverIdle_append_singleton.mp neverIdle).1
      rw [lastAccess_append_singleton, lastLeft_append_singleton]
      by_cases same : changed = id
      · subst same
        rw [Happening.access, Happening.left?, if_pos rfl]
        exact keeps.leave_self values
      · rw [Happening.left?, if_neg same]
        exact keeps.leave_other (Ne.symm same) values

end ClauseRouter.Store
