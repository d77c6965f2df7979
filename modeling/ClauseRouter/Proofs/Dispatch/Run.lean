import ClauseRouter.Proofs.Dispatch.Contract

/-!
# Every run is a sequence of steps

Handler code — matchers, clauses, predicates, recovery — changes the frame by `Frame.Steps` only, and
whenever it halts, the response that the halt carries is the outcome of the frame.  `Run` says both,
and `Run.lawful` shows that this is a lawful contract, even for code that swallows the signal of a
commit.  So it holds of every program (`Program.perform_run`) and of the dispatch of every application
(`Application.run_handle`).
-/

namespace ClauseRouter

open ClauseRouter.Frame (Steps)

/-- **A stretch of a dispatch** that ends one way or another outside the choice of a clause. -/
structure Run (before : Frame) (ending : Ending) (after : Frame) : Prop where
  steps : Steps before after
  idle : ¬ after.Selecting
  /-- What a halt carries is the outcome. -/
  carries : ∀ response, ending = .halted response → after.commitment = some response

namespace Run

lemma after {before between after : Frame} {ending : Ending} (h : Run between ending after)
    (h' : Steps before between) : Run before ending after :=
  ⟨h'.trans h.steps, h.idle, h.carries⟩

lemma trans {before between after : Frame} {first ending : Ending} (h : Run before first between)
    (h' : Run between ending after) : Run before ending after :=
  h'.after h.steps

/-- One more step that leaves the outcome alone and ends no choice. -/
lemma step {before between after : Frame} {ending : Ending} (h : Run before ending between)
    (h' : Frame.Step between after) (idle : ¬ after.Selecting) : Run before ending after :=
  ⟨h.steps.tail h', idle, fun response e => h'.commitment_eq (h.carries response e)⟩

/-- To commit is a run: it halts with the outcome, be it an old one or the new one. -/
lemma commit {frame : Frame} (idle : ¬ frame.Selecting) (response : Response) :
    Run frame (frame.commit response).1 (frame.commit response).2 := by
  unfold Frame.commit
  split
  · rename_i outcome fixed
    exact ⟨Steps.refl frame, idle, fun _ h => by cases h; exact fixed⟩
  · rename_i running
    exact ⟨.single (.commit idle running response), by simp, fun _ h => by cases h; rfl⟩

/-- Code that begins outside the choice of a clause makes a run. -/
def contract : Contract where
  pre frame := ¬ frame.Selecting
  post := Run
  chosen opened frame := Steps opened frame ∧ frame.Selecting

/-- **To make a run is a lawful contract,** whoever swallows the signal of a commit. -/
lemma lawful : contract.Lawful (.unlimited True) where
  stay idle goesOn := ⟨Steps.refl _, idle, fun response e => absurd e (goesOn response)⟩
  observe h := h.step (.observe h.idle) (by simp [Frame.note])
  respond h change := h.step (.respond h.idle change) (by simp [Frame.respond])
  view _ _ _ := trivial
  amend h change _ := h.step (.amend h.idle change) (by simp [Frame.amend])
  move h _ along := h.step (.move h.idle along) (by simp [Frame.moveTo])
  capture h found := h.step (.capture h.idle found) (by simp [Frame.capture])
  delegate idle := ⟨.single (.delegate idle), by simp [Frame.note], fun _ e => by cases e⟩
  commit idle response := commit idle response
  next h _ := h.idle
  trans h h' := h.trans h'
  openClause _ _ := ⟨Steps.refl _, by simp [Frame.openClause]⟩
  select {f g} h event selects := by
    obtain ⟨steps, selecting⟩ := h
    rcases selects with rfl | rfl
    · exact ⟨by simp [contract, Frame.note], fun ran => Run.after ran (steps.tail (.select selecting))⟩
    · exact ⟨by simp [contract, Frame.note], fun ran => Run.after ran (steps.tail (.enter selecting))⟩
  pass h := ⟨h.steps.tail (.pass h.idle), by simp [Frame.note]⟩
  restore {f g} ending idle running h := by
    have begun : Steps f f.openClause := .single (.openClause idle running)
    -- the moment at which the clause began tells where the cursor goes back to
    have opened : (⟨.opened, f.openClause.toStage⟩ : Moment) ∈ f.openClause.history := by
      simp [Frame.openClause]
    exact (Run.after h begun).step (.restore h.idle (h.steps.mem_history opened) rfl)
      (by simp [Frame.restore])

end Run

namespace Application

/-- What the names of an application stand for makes runs. -/
lemma environment_run (app : Application) : app.environment.Keeps Run.contract :=
  app.environment_keeps Run.lawful (obeys_unlimited (.inl trivial))

/-- **Every program makes a run** of every idle frame. -/
lemma perform_run (app : Application) (program : Program) {frame : Frame}
    (idle : ¬ frame.Selecting) (host : Host) :
    Run frame (program.perform app.environment frame host).value.1
      (program.perform app.environment frame host).value.2 :=
  program.perform_keeps Run.lawful app.environment_run (program.obeys_unlimited (.inl trivial)) frame
    host idle

/-- **The run of a dispatch:** how the handler of an application ends on a request, and the frame
that it leaves. -/
def handle (app : Application) (handler : Program) (request : Request) (host : Host) :
    Ending × Frame :=
  (handler.perform app.environment (.initial request) host).value

lemma run_handle (app : Application) (handler : Program) (request : Request) (host : Host) :
    Run (.initial request) (app.handle handler request host).1
      (app.handle handler request host).2 :=
  app.perform_run handler (Frame.not_selecting_initial request) host

/-- A dispatch replies what the run of its handler leaves. -/
lemma value_dispatch {app : Application} {handler : Program} (defined : app.handler = some handler)
    (request : Request) (host : Host) :
    (app.dispatch request host).value
      = replyOf (app.handle handler request host).1 (app.handle handler request host).2 := by
  simp only [dispatch, defined]
  rfl

end Application

end ClauseRouter
