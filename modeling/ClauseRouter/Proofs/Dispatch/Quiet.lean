import Mathlib.Tactic.ByContra
import ClauseRouter.Proofs.Dispatch.Run

/-!
# What runs after the commit

Once the outcome is fixed nothing should be tried, entered or called any more: a history of which
this is true is `Quiet`.  A clause sees to it when it begins, but not between its matchers, and to
delegate does not look at the outcome at all.  So a dispatch in which the signal of a commit is
swallowed need not be quiet.

**Exactly when a dispatch is quiet.**  No matcher of a clause passes after the commit, and no other
application is called then.  The two sides meet in the discipline of a clause (`Frame.Disciplined`): a
matcher is tried and a body is entered only right behind the beginning of the clause, where the outcome
is open, or right behind a matcher that has passed; and what passed is followed by one of these in
turn.

**Where nobody swallows the signal.**  Code that begins while the outcome is open (`Frame.Calm`) leaves
it open or halts (`Unwinding`), and this is a lawful contract for code that forwards the signal.

`Application.quiet_iff` says both.
-/

namespace ClauseRouter

/-- Part of a clause: a matcher is tried or the body entered. -/
def Event.isChoice : Event → Bool
  | tried | entered _ => true
  | _ => false

/-- Handler code or a matcher starts to run: part of a clause, or another application. -/
def Event.isWork (event : Event) : Bool := event.isChoice || event == .delegated

/-- Nothing starts to run once the outcome is fixed. -/
def Quiet (history : List Moment) : Prop :=
  ∀ moment ∈ history, moment.event.isWork → moment.stage.commitment = none

instance (history : List Moment) : Decidable (Quiet history) :=
  inferInstanceAs (Decidable (∀ moment ∈ history, _ → _))

namespace Frame

/-- An event of a kind that comes at a moment of the history at which the outcome is fixed. -/
def Late (frame : Frame) (kind : Event → Prop) : Prop :=
  ∃ moment ∈ frame.history, kind moment.event ∧ moment.stage.commitment ≠ none

lemma late_become {frame : Frame} {kind : Event → Prop} {event : Event} {stage : Stage} :
    (frame.become event stage).Late kind
      ↔ frame.Late kind ∨ (kind event ∧ stage.commitment ≠ none) := by
  simp only [Late, history_become, List.mem_append, List.mem_singleton]
  constructor
  · rintro ⟨moment, mem | rfl, late⟩
    · exact .inl ⟨moment, mem, late⟩
    · exact .inr late
  · rintro (⟨moment, mem, late⟩ | late)
    · exact ⟨moment, .inl mem, late⟩
    · exact ⟨_, .inr rfl, late⟩

/-- **The discipline of a clause,** as an invariant of the steps. -/
structure Disciplined (frame : Frame) : Prop where
  /-- The last moment holds what the frame holds. -/
  present : ∀ moment, frame.history.getLast? = some moment → moment.stage = frame.toStage
  /-- Clauses begin while the outcome is open. -/
  opened : ¬ frame.Late (· = .opened)
  /-- What is tried or entered late has a matcher before it that passed late. -/
  passed_of_choice : frame.Late (·.isChoice) → frame.Late (· = .passed)
  /-- A matcher that passed late has something tried or entered late behind it, or is the last
  thing that happened. -/
  choice_of_passed : frame.Late (· = .passed) →
    frame.Late (·.isChoice) ∨ (frame.last? = some .passed ∧ frame.commitment ≠ none)

lemma disciplined_initial (request : Request) : (initial request).Disciplined :=
  ⟨by simp [initial], by simp [Late, initial], by simp [Late, initial], by simp [Late, initial]⟩

lemma present_become (frame : Frame) (event : Event) (stage : Stage) (moment : Moment)
    (h : (frame.become event stage).history.getLast? = some moment) :
    moment.stage = (frame.become event stage).toStage := by
  simp only [history_become, List.getLast?_append, List.getLast?_singleton, Option.some_or,
    Option.some.injEq] at h
  rw [← h]
  rfl

/-- A step that is no part of a clause keeps the discipline. -/
lemma Disciplined.of_idle {frame : Frame} (h : frame.Disciplined) (idle : ¬ frame.Selecting)
    {event : Event} (opened : event ≠ .opened) (passed : event ≠ .passed)
    (choice : event.isChoice = false) (stage : Stage) :
    (frame.become event stage).Disciplined := by
  have last : frame.last? ≠ some .passed := fun last => idle (.inr last)
  refine ⟨present_become frame event stage, ?_, ?_, ?_⟩
  · simpa [late_become, opened] using h.opened
  · simpa [late_become, passed, choice] using h.passed_of_choice
  · simpa [late_become, passed, choice, last] using h.choice_of_passed

/-- While a clause is being chosen, the last moment tells whether that is late. -/
lemma Disciplined.passed_of_selecting {frame : Frame} (h : frame.Disciplined)
    (selecting : frame.Selecting) (late : frame.commitment ≠ none) : frame.Late (· = .passed) := by
  have named : ∀ {event : Event}, frame.last? = some event → frame.Late (· = event) := by
    intro event last
    obtain ⟨moment, final, rfl⟩ := Option.map_eq_some_iff.mp last
    refine ⟨moment, List.mem_of_getLast? final, rfl, ?_⟩
    rw [h.present moment final]
    exact late
  rcases selecting with last | last
  · exact absurd (named last) h.opened
  · exact named last

/-- To try a matcher or to enter the body keeps the discipline. -/
lemma Disciplined.of_selecting {frame : Frame} (h : frame.Disciplined)
    (selecting : frame.Selecting) {event : Event} (choice : event.isChoice = true) :
    (frame.note event).Disciplined := by
  have opened : event ≠ .opened := by rintro rfl; cases choice
  have passed : event ≠ .passed := by rintro rfl; cases choice
  refine ⟨present_become frame event _, ?_, ?_, ?_⟩
  · simpa [note, late_become, opened] using h.opened
  · intro late
    rw [note, late_become] at late ⊢
    rcases late with late | ⟨_, late⟩
    · exact .inl (h.passed_of_choice late)
    · exact .inl (h.passed_of_selecting selecting late)
  · intro late
    rw [note, late_become] at late ⊢
    rcases late with late | ⟨eq, _⟩
    · rcases h.choice_of_passed late with before | ⟨_, fixed⟩
      · exact .inl (.inl before)
      · exact .inl (.inr ⟨choice, fixed⟩)
    · exact absurd eq passed

lemma Step.disciplined {before after : Frame} (h : Step before after)
    (disciplined : before.Disciplined) : after.Disciplined := by
  cases h with
  | select selecting => exact disciplined.of_selecting selecting rfl
  | enter selecting => exact disciplined.of_selecting selecting rfl
  | openClause idle running =>
      have last : before.last? ≠ some .passed := fun last => idle (.inr last)
      refine ⟨present_become before .opened _, ?_, ?_, ?_⟩
      · simpa [Frame.openClause, late_become, running] using disciplined.opened
      · simpa [Frame.openClause, late_become, Event.isChoice] using disciplined.passed_of_choice
      · simpa [Frame.openClause, late_become, Event.isChoice, last]
          using disciplined.choice_of_passed
  | pass idle =>
      have last : before.last? ≠ some .passed := fun last => idle (.inr last)
      refine ⟨present_become before .passed _, ?_, ?_, ?_⟩
      · simpa [note, late_become] using disciplined.opened
      · intro late
        rw [note, late_become] at late ⊢
        rcases late with late | ⟨choice, _⟩
        · exact .inl (disciplined.passed_of_choice late)
        · cases choice
      · intro late
        rw [note, late_become] at late ⊢
        rcases late with late | ⟨_, late⟩
        · rcases disciplined.choice_of_passed late with before | ⟨eq, _⟩
          · exact .inl (.inl before)
          · exact absurd eq last
        · exact .inr ⟨last?_become before .passed _, late⟩
  | _ => exact disciplined.of_idle ‹_› (by simp) (by simp) rfl _

lemma Steps.disciplined {request : Request} {frame : Frame} (h : Steps (initial request) frame) :
    frame.Disciplined :=
  h.invariant Disciplined Step.disciplined (disciplined_initial request)

end Frame

/-! ## Where nobody swallows the signal -/

lemma Quiet.become {frame : Frame} (h : Quiet frame.history) {event : Event} {stage : Stage}
    (prompt : event.isWork → stage.commitment = none) :
    Quiet (frame.become event stage).history := by
  intro moment mem work
  rw [Frame.history_become, List.mem_append, List.mem_singleton] at mem
  rcases mem with mem | rfl
  · exact h moment mem work
  · exact prompt work

/-- The outcome is open, and nothing ran late so far. -/
structure Frame.Calm (frame : Frame) : Prop where
  quiet : Quiet frame.history
  running : frame.commitment = none

/-- Nothing ran late, and whoever has fixed the outcome is halting. -/
structure Unwinding (ending : Ending) (after : Frame) : Prop where
  quiet : Quiet after.history
  halts : after.commitment ≠ none → ∃ response, ending = .halted response

lemma Frame.Calm.note {frame : Frame} (h : frame.Calm) (event : Event) : (frame.note event).Calm :=
  ⟨h.quiet.become fun _ => h.running, h.running⟩

namespace Unwinding

lemma of_calm {frame : Frame} (h : frame.Calm) (ending : Ending) : Unwinding ending frame :=
  ⟨h.quiet, fun fixed => absurd h.running fixed⟩

lemma calm {ending : Ending} {after : Frame} (h : Unwinding ending after)
    (goesOn : ∀ response, ending ≠ .halted response) : after.Calm := by
  refine ⟨h.quiet, ?_⟩
  by_contra fixed
  obtain ⟨response, halted⟩ := h.halts fixed
  exact goesOn response halted

/-- What is done while the signal passes starts nothing and leaves the outcome alone. -/
lemma become {ending : Ending} {after : Frame} (h : Unwinding ending after) {event : Event}
    {stage : Stage} (idle : event.isWork = false) (same : stage.commitment = after.commitment) :
    Unwinding ending (after.become event stage) := by
  refine ⟨h.quiet.become fun work => ?_, fun fixed => h.halts ?_⟩
  · rw [idle] at work
    cases work
  · rw [← same]
    exact fixed

lemma commit {frame : Frame} (h : frame.Calm) (response : Response) :
    Unwinding (frame.commit response).1 (frame.commit response).2 := by
  simp only [Frame.commit, h.running]
  exact ⟨h.quiet.become (by simp [Event.isWork, Event.isChoice]), fun _ => ⟨response, rfl⟩⟩

/-- Code that begins while the outcome is open leaves it open or halts, and nothing runs late. -/
def contract : Contract where
  pre := Frame.Calm
  post _ := Unwinding
  chosen _ := Frame.Calm

/-- **To unwind is a lawful contract,** if nobody swallows the signal of a commit. -/
lemma lawful : contract.Lawful (.unlimited False) where
  stay calm _ := of_calm calm _
  observe h := h.become rfl rfl
  respond h _ := h.become rfl rfl
  view _ _ _ := trivial
  amend h _ _ := h.become rfl rfl
  move h _ _ := h.become rfl rfl
  capture h _ := h.become rfl rfl
  delegate calm := of_calm (calm.note .delegated) _
  commit calm response := commit calm response
  next h goesOn := h.calm goesOn
  trans _ h' := h'
  openClause calm running := ⟨calm.quiet.become fun _ => running, running⟩
  select calm event _ := ⟨calm.note event, fun h => h⟩
  pass h := (h.calm (by simp)).note .passed
  restore _ _ h := h.become rfl rfl

end Unwinding

namespace Application

/-- Where nobody swallows the signal of a commit, nothing runs after it. -/
lemma quiet_of_forwards {app : Application} (known : app.Forwards) {handler : Program}
    (forwards : handler.Forwards) (request : Request) (host : Host) :
    Quiet (app.handle handler request host).2.history := by
  have calm : (Frame.initial request).Calm := ⟨by simp [Quiet, Frame.initial], rfl⟩
  have keeps := app.environment_keeps Unwinding.lawful (obeys_unlimited (.inr known))
  have obeys : handler.Obeys (.unlimited False) := handler.obeys_unlimited (.inr forwards)
  exact (handler.perform_keeps Unwinding.lawful keeps obeys _ host calm).quiet

/-- **When nothing runs after the commit:** exactly in a dispatch in which no matcher of a clause
passes, and no other application is called, once the outcome is fixed.  In any dispatch, no clause
begins then; and where no attempt in the handler or in a named condition catches the signal of a
commit, nothing at all runs after it. -/
theorem quiet_iff (app : Application) (handler : Program) (request : Request) (host : Host) :
    let history := (app.handle handler request host).2.history
    (Quiet history ↔ ∀ moment ∈ history,
      moment.event = .passed ∨ moment.event = .delegated → moment.stage.commitment = none) ∧
    (∀ moment ∈ history, moment.event = .opened → moment.stage.commitment = none) ∧
    (app.Forwards → handler.Forwards → Quiet history) := by
  intro history
  have discipline := (app.run_handle handler request host).steps.disciplined
  refine ⟨⟨fun quiet moment mem late => ?_, fun prompt moment mem work => ?_⟩, ?_,
    fun known forwards => quiet_of_forwards known forwards request host⟩
  · rcases late with passed | delegated
    · by_contra fixed
      rcases discipline.choice_of_passed ⟨moment, mem, passed, fixed⟩ with late | ⟨last, _⟩
      · obtain ⟨other, mem', choice, fixed'⟩ := late
        exact fixed' (quiet other mem' (by simp [Event.isWork, choice]))
      · exact (app.run_handle handler request host).idle (.inr last)
    · exact quiet moment mem (by simp [Event.isWork, delegated])
  · rcases (Bool.or_eq_true _ _).mp work with choice | delegated
    · by_contra fixed
      obtain ⟨other, mem', passed, fixed'⟩ :=
        discipline.passed_of_choice ⟨moment, mem, choice, fixed⟩
      exact fixed' (prompt other mem' (.inl passed))
    · exact prompt moment mem (.inr (by simpa using delegated))
  · intro moment mem opened
    by_contra fixed
    exact discipline.opened ⟨moment, mem, opened, fixed⟩

/-- A handler with a clause that commits, and a delegation behind it that is never reached. -/
theorem quiet_iff_of_clause :
    let clause : Program := .on [.truth true] fun _ => .halt {}
    Quiet (handle {} (.seq clause (.delegate fun _ => pure (.ok {}))) {} ⟨0, [], []⟩).2.history := by
  intro clause
  have known : Application.Forwards {} := fun _ _ h => by cases h
  exact (quiet_iff {} _ {} ⟨0, [], []⟩).2.2 known (by simp [clause, Program.Forwards,
    Condition.Forwards, allForward])

/-- A handler that swallows the signal of its commit can delegate after it, and a clause whose
predicate swallows it enters its body. -/
theorem not_quiet_of_swallowed :
    let swallowed : Program := .attempt (.halt {}) .everything fun _ => .skip
    let other : Application := { handler := some .skip }
    ¬ Quiet (handle {} (.seq swallowed (.delegate other.call)) {} ⟨0, [], []⟩).2.history ∧
    ¬ Quiet (handle {} (.on [.check swallowed] fun _ => .skip) {} ⟨0, [], []⟩).2.history := by
  decide +kernel

end Application

end ClauseRouter
