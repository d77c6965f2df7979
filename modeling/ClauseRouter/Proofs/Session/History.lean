import ClauseRouter.Proofs.Session.Store

/-!
# The history of a session store

`Store.Runs` relates a store to what happened to it since it was made: sessions were asked for, at any
time and with any random words, expired ones were swept away, and sessions were touched, aged, and
given values or stripped of them.

**Isolation.**  What a session holds under a key is what was put there on this very session since it was
created, and not erased.  Nothing that happens to another session shows in it.

* `Action.settles?` — what an action makes of one key of one session; most actions leave it alone.
* `Wrote` — the last action that settled a key put a value there.
* `Does.origin` — where a session that is there after a step comes from.
* `Records.step`, `Runs.records` — what the stored sessions have to do with the history, kept by every
  step, and therefore true of every run.
* `Serves` — how a store answers, whatever happened to it.
* `sessions_isolated` — both, for every run.
-/

namespace ClauseRouter.Store

/-- What happens to a store. -/
inductive Action where
  /-- A session was asked for: the identifier that was asked for, that of the session which was given,
  and whether it is a new one. -/
  | obtained (asked id : Bytes) (isNew : Bool)
  /-- The expired sessions were dropped. -/
  | swept
  /-- An identifier was drawn and not used. -/
  | drawn (id : Bytes)
  /-- The access time of a session was set: the session was touched or aged. -/
  | timed (id : Bytes)
  /-- A value was put under a key of a session. -/
  | put (id key value : Bytes)
  /-- A key of a session was erased. -/
  | erased (id key : Bytes)
  deriving DecidableEq

/-- What an action makes of a key of a session; `none` if it leaves the key as it is. -/
def Action.settles? (id key : Bytes) : Action → Option (Option Bytes)
  | .obtained _ given isNew => if isNew = true ∧ given = id then some none else none
  | .put changed written value => if changed = id ∧ written = key then some (some value) else none
  | .erased changed written => if changed = id ∧ written = key then some none else none
  | .swept | .drawn _ | .timed _ => none

/-- One action.  Time and the random source are arbitrary in every step. -/
inductive Does (store : Store) : Action → Store → Prop
  | obtain {now : UInt64} {words : List UInt64} {asked : Bytes} {answer : Obtained} :
      store.obtain? now words asked = some answer →
        Does store (.obtained asked answer.id answer.isNew) answer.store
  | sweep (now : UInt64) : Does store .swept (store.sweep now)
  | draw {words rest : List UInt64} {id : Bytes} :
      store.draw? words = some (id, rest) → Does store (.drawn id) store
  | time {id : Bytes} {s : Session} (access : UInt64) :
      store.sessions.get? id = some s →
        Does store (.timed id) (store.update id fun s => { s with lastAccess := access })
  | put {id : Bytes} {s : Session} (key value : Bytes) :
      store.sessions.get? id = some s →
        Does store (.put id key value)
          (store.update id fun s => { s with values := s.values.set key value })
  | erase {id : Bytes} {s : Session} (key : Bytes) :
      store.sessions.get? id = some s →
        Does store (.erased id key)
          (store.update id fun s => { s with values := s.values.erase key })

/-- What happened to a store since it was made, in order. -/
inductive Runs (timeout : UInt64) : List Action → Store → Prop
  | start : Runs timeout [] { timeout }
  | step {history : List Action} {store after : Store} {action : Action} :
      Runs timeout history store → Does store action after →
        Runs timeout (history ++ [action]) after

variable {store after : Store} {history : List Action} {action : Action} {id key value : Bytes}
  {s : Session}

/-! ## What was written last -/

/-- A value was put under a key of a session, and nothing has settled the key since: it was not put
again or erased, and the session was not created anew. -/
def Wrote (history : List Action) (id key value : Bytes) : Prop :=
  ∃ before later, history = before ++ .put id key value :: later ∧
    ∀ action ∈ later, action.settles? id key = none

/-- The only way to settle a key with a value is to put it there. -/
lemma settles?_eq_some_some :
    action.settles? id key = some (some value) ↔ action = .put id key value := by
  cases action <;> simp [Action.settles?, and_assoc]

/-- **The last action decides,** if it settles the key at all. -/
lemma wrote_append_singleton :
    Wrote (history ++ [action]) id key value ↔
      (action.settles? id key = none ∧ Wrote history id key value) ∨
        action.settles? id key = some (some value) := by
  rw [settles?_eq_some_some]
  constructor
  case mp =>
    rintro ⟨before, later, split, quiet⟩
    rcases append_singleton_eq_iff.mp split with ⟨-, -, same⟩ | ⟨init, rfl, earlier⟩
    · exact .inr same
    · left
      exact ⟨quiet action (by simp), before, init, earlier, fun a mem => quiet a (by simp [mem])⟩
  case mpr =>
    rintro (⟨leaves, before, later, rfl, quiet⟩ | rfl)
    · refine ⟨before, later ++ [action], by simp, fun a mem => ?_⟩
      rcases List.mem_append.mp mem with mem | mem
      · exact quiet a mem
      · rw [List.mem_singleton.mp mem, leaves]
    · exact ⟨history, [], rfl, by simp⟩

/-! ## One step -/

/-- **Where a session comes from** that is there after an action: the action has created it, or it was
there before, and then each of its keys holds what the action made of it. -/
lemma Does.origin (does : Does store action after) (there : after.sessions.get? id = some s) :
    (IsIdentifier id ∧ s.id = id ∧ s.values = .empty ∧ ∃ asked, action = .obtained asked id true) ∨
      ∃ old, store.sessions.get? id = some old ∧ s.id = old.id ∧
        ∀ key, s.values.get? key = (action.settles? id key).getD (old.values.get? key) := by
  cases does with
  | @obtain now words asked answer h =>
      rcases finds_or_opens h with ⟨old, ⟨stored, -⟩, finds⟩ | ⟨-, opens⟩
      case inl =>
        right
        by_cases same : id = asked
        · subst same
          rw [finds.refreshed] at there
          cases there
          exact ⟨old, stored, rfl, fun key => by simp [Action.settles?, finds.isOld]⟩
        · rw [finds.others id same] at there
          exact ⟨s, there, rfl, fun key => by simp [Action.settles?, finds.isOld]⟩
      case inr =>
        by_cases given : id = answer.id
        · left
          subst given
          rw [opens.empty] at there
          cases there
          exact ⟨opens.identifier, rfl, rfl, asked, by rw [opens.isNew]⟩
        · right
          -- the session that was asked for is gone, so this is another one
          have other : id ≠ asked := by
            rintro rfl
            rw [opens.dropped (Ne.symm given)] at there
            cases there
          rw [opens.others id other given] at there
          exact ⟨s, there, rfl, fun key => by simp [Action.settles?, Ne.symm given]⟩
  | sweep now =>
      right
      rw [get?_sweep, Option.filter_eq_some_iff] at there
      exact ⟨s, there.1, rfl, fun key => rfl⟩
  | draw => exact .inr ⟨s, there, rfl, fun key => rfl⟩
  | @time changed old access stored =>
      right
      rcases of_get?_update stored there with ⟨rfl, rfl⟩ | ⟨-, there⟩
      · exact ⟨old, stored, rfl, fun key => rfl⟩
      · exact ⟨s, there, rfl, fun key => rfl⟩
  | @put changed old written value stored =>
      right
      rcases of_get?_update stored there with ⟨rfl, rfl⟩ | ⟨other, there⟩
      · refine ⟨old, stored, rfl, fun key => ?_⟩
        rw [Dict.get?_set, Action.settles?]
        by_cases here : key = written
        · simp [here]
        · simp [here, Ne.symm here]
      · exact ⟨s, there, rfl, fun key => by simp [Action.settles?, Ne.symm other]⟩
  | @erase changed old written stored =>
      right
      rcases of_get?_update stored there with ⟨rfl, rfl⟩ | ⟨other, there⟩
      · refine ⟨old, stored, rfl, fun key => ?_⟩
        rw [Dict.get?_erase, Action.settles?]
        by_cases here : key = written
        · simp [here]
        · simp [here, Ne.symm here]
      · exact ⟨s, there, rfl, fun key => by simp [Action.settles?, Ne.symm other]⟩

lemma Does.timeout_eq (does : Does store action after) : after.timeout = store.timeout := by
  cases does with
  | obtain h => exact timeout_of_obtain? h
  | sweep | draw => rfl
  | time | put | erase => exact timeout_update _ _ _

/-! ## Runs -/

/-- **What the session of an identifier has to do with the history.** -/
structure Records (history : List Action) (id : Bytes) (s : Session) : Prop where
  own : s.id = id
  identifier : IsIdentifier id
  created : ∃ asked, .obtained asked id true ∈ history
  values : ∀ key value, s.values.get? key = some value ↔ Wrote history id key value

/-- A new session records nothing. -/
lemma Records.of_created {asked : Bytes} (identifier : IsIdentifier id) (own : s.id = id)
    (empty : s.values = .empty) : Records (history ++ [.obtained asked id true]) id s where
  own := own
  identifier := identifier
  created := ⟨asked, by simp⟩
  values key value := by
    rw [empty, wrote_append_singleton]
    simp [Action.settles?]

/-- A session that was there before records one action more. -/
lemma Records.snoc {old : Session} (records : Records history id old) (own : s.id = old.id)
    (kept : ∀ key, s.values.get? key = (action.settles? id key).getD (old.values.get? key)) :
    Records (history ++ [action]) id s where
  own := own.trans records.own
  identifier := records.identifier
  created := records.created.imp fun _ mem => List.mem_append_left _ mem
  values key value := by
    rw [kept, wrote_append_singleton, ← records.values]
    cases action.settles? id key <;> simp

/-- **An action keeps what the sessions record.** -/
lemma Records.step (does : Does store action after)
    (records : ∀ id s, store.sessions.get? id = some s → Records history id s)
    (there : after.sessions.get? id = some s) : Records (history ++ [action]) id s := by
  rcases does.origin there with ⟨identifier, own, empty, asked, rfl⟩ | ⟨old, stored, own, kept⟩
  · exact .of_created identifier own empty
  · exact (records id old stored).snoc own kept

/-- After every run the sessions record what happened to them. -/
lemma Runs.records {timeout : UInt64} (run : Runs timeout history store) :
    ∀ id s, store.sessions.get? id = some s → Records history id s := by
  induction run with
  | start =>
      intro id s there
      rw [Dict.get?_empty] at there
      cases there
  | step _ does ih => exact fun id s there => Records.step does ih there

/-- The timeout of a store stays what it was when it was made. -/
lemma Runs.timeout_eq {timeout : UInt64} (run : Runs timeout history store) :
    store.timeout = timeout := by
  induction run with
  | start => rfl
  | step _ does ih => rw [does.timeout_eq, ih]

/-- **How a store answers.**  It gives the live session of an identifier or, where there is none and an
identifier can be drawn, a new session.  A sweep drops what has expired and nothing else; what is drawn
is an identifier that is not in use. -/
structure Serves (store : Store) : Prop where
  finds : ∀ now words id s, store.Live now id s →
    ∃ answer, store.obtain? now words id = some answer ∧ store.Finds now id s answer
  opens : ∀ now words id fresh rest, (¬ ∃ s, store.Live now id s) →
    (store.without id).draw? words = some (fresh, rest) →
      ∃ answer, store.obtain? now words id = some answer ∧ answer.id = fresh ∧
        store.Opens now id answer
  sweeps : ∀ now id s, (store.sweep now).sessions.get? id = some s ↔ store.Live now id s
  draws : ∀ words id rest, store.draw? words = some (id, rest) →
    IsIdentifier id ∧ store.sessions.get? id = none

lemma serves (store : Store) : store.Serves where
  finds _ words _ _ live := obtain?_of_live live words
  opens _ _ _ _ _ stale drawn := obtain?_of_not_live stale drawn
  sweeps _ _ _ := get?_sweep_eq_some
  draws _ _ _ drawn := fresh_of_draw? drawn

/-- **Sessions are isolated.**  After every run, a session is stored under its own identifier, which is
sixteen hexadecimal digits; its values are exactly those that were put on it since its creation and not
erased; and the store serves. -/
theorem sessions_isolated {timeout : UInt64} (run : Runs timeout history store) :
    store.timeout = timeout ∧
      (∀ id s, store.sessions.get? id = some s → Records history id s) ∧ store.Serves :=
  ⟨run.timeout_eq, run.records, store.serves⟩

/-- Two clients each put a value on a session of their own.  The first one comes back too late and is
given a new session, without values; the session of the other one has what was put on it. -/
theorem sessions_isolated_of_visit :
    let ann := spell 7
    let bob := spell 8
    let again := spell 9
    let user := ascii "user"
    let visits : List Action := [.obtained [] ann true, .put ann user (ascii "ann"),
      .obtained [] bob true, .put bob user (ascii "bob")]
    ∃ store, Runs 300 (visits ++ [.obtained ann again true]) store ∧
      store.Serves ∧ store.sessions.get? ann = none ∧
      (∃ s, store.sessions.get? bob = some s ∧ s.values.get? user = some (ascii "bob")) ∧
      ∃ s, store.sessions.get? again = some s ∧ s.values.get? user = none := by
  intro ann bob again user visits
  have different : ann ≠ bob ∧ again ≠ ann ∧ again ≠ bob := by decide
  obtain ⟨annBob, againAnn, againBob⟩ := different
  let first : Store := ⟨Dict.empty.set ann ⟨ann, 10, .empty⟩, 300⟩
  have opened : ({ timeout := 300 } : Store).obtain? 10 [7] [] = some ⟨ann, true, first, []⟩ := rfl
  have stored : first.sessions.get? ann = some ⟨ann, 10, .empty⟩ := by simp [first, Dict.get?_set]
  let written : Store := first.update ann fun s => { s with values := s.values.set user (ascii "ann") }
  let second : Store := ⟨written.sessions.set bob ⟨bob, 200, .empty⟩, 300⟩
  have opened' : written.obtain? 200 [8] [] = some ⟨bob, true, second, []⟩ := rfl
  have stored' : second.sessions.get? bob = some ⟨bob, 200, .empty⟩ := by simp [second, Dict.get?_set]
  let both : Store := second.update bob fun s => { s with values := s.values.set user (ascii "bob") }
  have visited : Runs 300 visits both := (((Runs.start.step (.obtain opened)).step
    (.put user (ascii "ann") stored)).step (.obtain opened')).step (.put user (ascii "bob") stored')
  have annLeft : both.sessions.get? ann = some ⟨ann, 10, Dict.empty.set user (ascii "ann")⟩ := by
    simp [both, second, written, first, get?_update, Dict.get?_set, annBob]
  have bobLeft : both.sessions.get? bob = some ⟨bob, 200, Dict.empty.set user (ascii "bob")⟩ := by
    simp [both, second, get?_update, Dict.get?_set]
  have unused : (both.without ann).sessions.get? again = none := by
    simp [both, second, written, first, without, get?_update, Dict.get?_set, Dict.get?_erase, againAnn,
      againBob]
  -- 310 seconds have passed, more than the timeout
  have stale : ¬ ∃ s, both.Live 320 ann s := by
    rintro ⟨s, there, fresh⟩
    cases annLeft.symm.trans there
    exact absurd fresh (by decide)
  have drawn : (both.without ann).draw? [9] = some (again, []) := by
    simp [draw?, Dict.contains, unused, again]
  obtain ⟨⟨id, isNew, store, words⟩, asked, same, opens⟩ := obtain?_of_not_live stale drawn
  obtain rfl : id = again := same
  obtain rfl : isNew = true := opens.isNew
  have run := visited.step (.obtain asked)
  obtain ⟨-, records, serves⟩ := sessions_isolated run
  have bobStays : store.sessions.get? bob = _ :=
    (opens.others bob annBob.symm againBob.symm).trans bobLeft
  refine ⟨store, run, serves, opens.dropped againAnn, ⟨_, bobStays, ?_⟩, ⟨_, opens.empty, ?_⟩⟩
  · have wrote : Wrote visits bob user (ascii "bob") := ⟨visits.take 3, [], rfl, by simp⟩
    have leaves : (Action.obtained ann again true).settles? bob user = none := by
      simp [Action.settles?, againBob]
    exact ((records bob _ bobStays).values _ _).mpr (wrote_append_singleton.mpr (.inl ⟨leaves, wrote⟩))
  · refine Option.eq_none_iff_forall_ne_some.mpr fun value held => ?_
    have wrote := ((records again _ opens.empty).values user value).mp held
    rcases wrote_append_singleton.mp wrote with ⟨settles, -⟩ | settles
    · cases settles
    · cases settles

end ClauseRouter.Store
