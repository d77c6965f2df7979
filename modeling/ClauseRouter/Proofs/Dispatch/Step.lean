import Mathlib.Logic.Relation
import Mathlib.Tactic.Lemma
import ClauseRouter.Dispatch.Frame

/-!
# What a dispatch can do in one step

Handler code runs as a recursion on the program, but the frame it works on only ever changes by a
few kinds of steps.  `Frame.Step` lists them, each with the condition under which it happens, and
`Frame.Steps` is any number of them.  What holds of a dispatch at every moment is proved about
`Frame.Step` once and then holds along `Frame.Steps`.

A clause does not let anything come between the matcher that passed and what follows: while a frame
is `Frame.Selecting`, the only steps are to try a matcher and to enter the body.

* `Step.eq_become` — every step is noted in the history, with the stage that it leads to.
* `Step.commitment_eq` — no step changes an outcome that is fixed.
* `Steps.mem_history` — what happened stays in the history.
-/

namespace ClauseRouter.Frame

/-- The event that happened last. -/
def last? (frame : Frame) : Option Event := frame.history.getLast?.map Moment.event

/-- A clause has been begun or a matcher of it has passed, and nothing else has happened since. -/
def Selecting (frame : Frame) : Prop :=
  frame.last? = some .opened ∨ frame.last? = some .passed

/-- **One step of a dispatch.**  The cursor moves along its path only, goes back only to where an
earlier clause began, and a clause begins only while the outcome is open. -/
inductive Step : Frame → Frame → Prop
  | observe {frame : Frame} (idle : ¬ frame.Selecting) : Step frame (frame.note .observed)
  | respond {frame : Frame} (idle : ¬ frame.Selecting) (change : Response → Response) :
      Step frame (frame.respond change)
  | amend {frame : Frame} (idle : ¬ frame.Selecting) (change : Request → Request) :
      Step frame (frame.amend change)
  | move {frame : Frame} (idle : ¬ frame.Selecting) {cursor : Cursor}
      (along : cursor.path = frame.request.cursor.path) : Step frame (frame.moveTo cursor)
  | capture {frame : Frame} (idle : ¬ frame.Selecting) (found : Captures) :
      Step frame (frame.capture found)
  | openClause {frame : Frame} (idle : ¬ frame.Selecting) (running : frame.commitment = none) :
      Step frame frame.openClause
  | select {frame : Frame} (selecting : frame.Selecting) : Step frame (frame.note .tried)
  | pass {frame : Frame} (idle : ¬ frame.Selecting) : Step frame (frame.note .passed)
  | enter {frame : Frame} (selecting : frame.Selecting) :
      Step frame (frame.note (.entered frame.captures))
  | restore {frame : Frame} (idle : ¬ frame.Selecting) {earlier : Moment}
      (mem : earlier ∈ frame.history) (opened : earlier.event = .opened) :
      Step frame (frame.restore earlier.stage.request.cursor)
  | delegate {frame : Frame} (idle : ¬ frame.Selecting) : Step frame (frame.note .delegated)
  | commit {frame : Frame} (idle : ¬ frame.Selecting) (running : frame.commitment = none)
      (response : Response) :
      Step frame (frame.become .committed { frame.toStage with commitment := some response })

/-- Any number of steps. -/
def Steps : Frame → Frame → Prop := Relation.ReflTransGen Step

@[simp] lemma history_become (frame : Frame) (event : Event) (stage : Stage) :
    (frame.become event stage).history = frame.history ++ [⟨event, stage⟩] := rfl

@[simp] lemma toStage_become (frame : Frame) (event : Event) (stage : Stage) :
    (frame.become event stage).toStage = stage := rfl

@[simp] lemma last?_become (frame : Frame) (event : Event) (stage : Stage) :
    (frame.become event stage).last? = some event := by
  simp [last?]

@[simp] lemma selecting_become (frame : Frame) (event : Event) (stage : Stage) :
    (frame.become event stage).Selecting ↔ event = .opened ∨ event = .passed := by
  simp [Selecting]

/-- A fresh dispatch is in no clause. -/
lemma not_selecting_initial (request : Request) : ¬ (initial request).Selecting := by
  simp [Selecting, last?, initial]

/-- Every step is noted in the history, with the stage that it leads to. -/
lemma Step.eq_become {before after : Frame} (h : Step before after) :
    ∃ event stage, after = before.become event stage := by
  cases h <;> exact ⟨_, _, rfl⟩

/-- **The first commit is final, step by step:** a step leaves an outcome alone that is fixed. -/
lemma Step.commitment_eq {before after : Frame} (h : Step before after) {outcome : Response}
    (fixed : before.commitment = some outcome) : after.commitment = some outcome := by
  cases h with
  | commit _ running _ => rw [running] at fixed; cases fixed
  | _ => exact fixed

/-- A step that is a commit finds the outcome open. -/
lemma Step.running_of_committed {before after : Frame} (h : Step before after)
    (last : after.last? = some .committed) : before.commitment = none := by
  cases h with
  | commit _ running _ => exact running
  | _ =>
      simp [note, Frame.respond, Frame.amend, moveTo, Frame.capture, Frame.openClause,
        Frame.restore] at last

/-- Nothing but a commit gives an outcome to a frame that has none. -/
lemma Step.committed_of_running {before after : Frame} (h : Step before after)
    (running : before.commitment = none) {outcome : Response}
    (fixed : after.commitment = some outcome) : after.last? = some .committed := by
  cases h with
  | commit _ _ _ => simp
  | _ => exact absurd (running.symm.trans fixed) (by simp)

namespace Steps

lemma refl (frame : Frame) : Steps frame frame := Relation.ReflTransGen.refl

lemma trans {before between after : Frame} (h : Steps before between) (h' : Steps between after) :
    Steps before after :=
  Relation.ReflTransGen.trans h h'

lemma single {before after : Frame} (h : Step before after) : Steps before after :=
  Relation.ReflTransGen.single h

lemma tail {before between after : Frame} (h : Steps before between) (h' : Step between after) :
    Steps before after :=
  Relation.ReflTransGen.tail h h'

/-- An invariant of the steps holds after any number of them. -/
lemma invariant (Inv : Frame → Prop)
    (kept : ∀ {before after : Frame}, Step before after → Inv before → Inv after)
    {before after : Frame} (h : Steps before after) (holds : Inv before) : Inv after := by
  induction h with
  | refl => exact holds
  | tail _ step ih => exact kept step ih

/-- An outcome that is fixed stays fixed. -/
lemma commitment_eq {before after : Frame} (h : Steps before after) {outcome : Response}
    (fixed : before.commitment = some outcome) : after.commitment = some outcome :=
  h.invariant (·.commitment = some outcome) (fun step fixed => step.commitment_eq fixed) fixed

/-- What happened stays in the history. -/
lemma mem_history {before after : Frame} (h : Steps before after) {moment : Moment}
    (mem : moment ∈ before.history) : moment ∈ after.history := by
  refine h.invariant (moment ∈ ·.history) (fun step mem => ?_) mem
  obtain ⟨event, stage, rfl⟩ := step.eq_become
  exact List.mem_append_left _ mem

end Steps

end ClauseRouter.Frame
