import ClauseRouter.Proofs.Dispatch.Run

/-!
# The first commit wins

A dispatch has one outcome.  The history of a dispatch is **steady**: from the moment at which a
response is committed every later moment has this response as its outcome, and nothing is committed
again.  Along `Frame.Steps` this needs no more than that no step changes an outcome that is fixed
(`Frame.Step.commitment_eq`); that the reply is the outcome too comes from what a halt carries
(`Run.carries`).

* `Frame.Steps.steady` — the history of every run from a fresh frame is steady.
* `Frame.Steps.commits_iff` — the outcome is what the history says was committed.
* `Program.Offers.commits` — a halt, a delegation and a clause that is completed do commit.
* `Application.first_commit_wins` — the first two for the dispatch of an application, and its reply.
-/

namespace ClauseRouter

/-- A response was committed at some moment of a history. -/
def Commits (history : List Moment) (response : Response) : Prop :=
  ∃ moment ∈ history, moment.event = .committed ∧ moment.stage.commitment = some response

/-- Once a moment has an outcome, every later moment has the same, and none commits again. -/
def Steady (history : List Moment) : Prop :=
  history.Pairwise fun earlier later => ∀ response, earlier.stage.commitment = some response →
    later.stage.commitment = some response ∧ later.event ≠ .committed

namespace Frame

/-- What is said of the outcome of a frame and its history, as an invariant of the steps. -/
structure Settled (frame : Frame) : Prop where
  steady : Steady frame.history
  kept : ∀ moment ∈ frame.history, ∀ response, moment.stage.commitment = some response →
    frame.commitment = some response
  committed : ∀ response, frame.commitment = some response → Commits frame.history response

lemma settled_initial (request : Request) : (initial request).Settled :=
  ⟨.nil, (fun _ mem => by cases mem), (fun _ fixed => by cases fixed)⟩

lemma Step.settled {before after : Frame} (h : Step before after) (settled : before.Settled) :
    after.Settled := by
  obtain ⟨event, stage, rfl⟩ := h.eq_become
  refine ⟨?_, ?_, ?_⟩
  · rw [Steady, history_become, List.pairwise_append]
    refine ⟨settled.steady, by simp, fun earlier mem later new response fixed => ?_⟩
    obtain rfl : later = ⟨event, stage⟩ := List.mem_singleton.mp new
    have held := settled.kept earlier mem response fixed
    refine ⟨h.commitment_eq held, fun committed => ?_⟩
    have running := h.running_of_committed (by rw [last?_become, ← committed])
    exact absurd (running.symm.trans held) (by simp)
  · intro moment mem response fixed
    rw [history_become, List.mem_append, List.mem_singleton] at mem
    rcases mem with mem | rfl
    · exact h.commitment_eq (settled.kept moment mem response fixed)
    · exact fixed
  · intro response fixed
    cases open' : before.commitment with
    | some outcome =>
        have same : stage.commitment = some outcome := h.commitment_eq open'
        obtain rfl : outcome = response := Option.some.inj (same.symm.trans fixed)
        obtain ⟨moment, mem, committed⟩ := settled.committed outcome open'
        exact ⟨moment, by simp [mem], committed⟩
    | none =>
        have last := h.committed_of_running open' fixed
        rw [last?_become, Option.some.injEq] at last
        exact ⟨⟨event, stage⟩, by simp, last, fixed⟩

namespace Steps

lemma settled {request : Request} {frame : Frame} (h : Steps (initial request) frame) :
    frame.Settled :=
  h.invariant Settled Step.settled (settled_initial request)

/-- **The history of a dispatch is steady.** -/
lemma steady {request : Request} {frame : Frame} (h : Steps (initial request) frame) :
    Steady frame.history :=
  h.settled.steady

/-- The outcome is what the history says was committed. -/
lemma commits_iff {request : Request} {frame : Frame} (h : Steps (initial request) frame)
    {response : Response} : Commits frame.history response ↔ frame.commitment = some response :=
  ⟨fun ⟨moment, mem, _, fixed⟩ => h.settled.kept moment mem response fixed,
    h.settled.committed response⟩

end Steps

end Frame

/-! ## What commits -/

/-- A commit is noted with the response, while there is no outcome. -/
lemma Frame.commits_commit {frame : Frame} (running : frame.commitment = none) (response : Response) :
    (frame.commit response).1 = .halted response ∧
      Commits (frame.commit response).2.history response := by
  simp [Frame.commit, running, Commits]

namespace Program

/-- **What code is about to commit** in a frame: the response that it halts with, the reply of an endpoint
to which it delegates, or the finished response of a clause whose matchers pass and whose body returns. -/
inductive Offers (env : Environment) (frame : Frame) (host : Host) : Program → Response → Prop
  | halt (response : Response) : Offers env frame host (.halt response) response
  | delegate {endpoint : Endpoint} {response : Response}
      (replied : (endpoint frame.request host).value = .ok response) :
      Offers env frame host (.delegate endpoint) response
  | clause {clause : List Condition} {body : Captures → Program} {matchers : List Matcher}
      {entered built : Frame} {left : Host} {lines : List Line} {verdict : Bool}
      (prepared : prepareAll env frame.request clause = .ok matchers)
      (passed : Matcher.evaluateAll matchers frame.openClause host
        = ⟨(.returned true, entered), left, lines⟩)
      (returned : ((body entered.captures).perform env
        (entered.note (.entered entered.captures)) left).value = (.returned verdict, built))
      (running : built.commitment = none) :
      Offers env frame host (.on clause body) built.response.finish

/-- **What is offered is committed,** while there is no outcome. -/
lemma Offers.commits {env : Environment} {frame : Frame} {host : Host} {program : Program}
    {response : Response} (offers : program.Offers env frame host response)
    (running : frame.commitment = none) :
    (program.perform env frame host).value.1 = .halted response ∧
      Commits (program.perform env frame host).value.2.history response := by
  cases offers with
  | halt => exact Frame.commits_commit running response
  | @delegate endpoint _ replied =>
      have called : (frame.note .delegated).commitment = none := running
      have replied : (endpoint (frame.note .delegated).request host).value = .ok response := replied
      simp only [perform, Frame.delegate, Hosted.value_bind, replied, Hosted.value_pure]
      exact Frame.commits_commit called response
  | clause prepared passed returned inside =>
      obtain ⟨halted, moment, mem, committed⟩ := Frame.commits_commit inside _
      simp only [perform, prepared, Frame.tryClause, running, Frame.tryClause.attemptClause,
        Hosted.value_bind, Hosted.value_pure, passed, returned]
      exact ⟨halted, moment, List.mem_append_left _ mem, committed⟩

end Program

namespace Application

/-- **The first commit wins.**  In the dispatch of any handler on any request:

* the history is steady, so a committed response stays the outcome;
* a committed response is the outcome in the end and the reply, unless the handler left by a fault;
  whatever program is performed after that keeps the outcome, and halts with nothing else;
* where nothing was committed, the reply is the response that the handler left, not found and
  finished, unless the handler left by a fault;
* a halt that leaves the handler ends there: the reply is the response that it carries. -/
theorem first_commit_wins (app : Application) (handler : Program) (request : Request)
    (host : Host) :
    let ending := (app.handle handler request host).1
    let frame := (app.handle handler request host).2
    let reply := ((app.define handler).dispatch request host).value
    let left := ∃ fault, ending = .faulted fault ∧ reply = .error fault
    Steady frame.history ∧
    (∀ response, Commits frame.history response →
      frame.commitment = some response ∧
      (∀ (later : Program) (host' : Host),
        (later.perform app.environment frame host').value.2.commitment = some response ∧
        ∀ other, (later.perform app.environment frame host').value.1 = .halted other →
          other = response) ∧
      (reply = .ok response ∨ left)) ∧
    ((∀ response, ¬ Commits frame.history response) →
      reply = .ok (frame.response.setStatus 404).finish ∨ left) ∧
    (∀ response, ending = .halted response →
      Commits frame.history response ∧ reply = .ok response) ∧
    (app.middlewares = [] → ((app.define handler).call request host).value = reply) := by
  intro ending frame reply left
  have run := app.run_handle handler request host
  have replied : reply = replyOf ending frame := value_dispatch rfl request host
  refine ⟨run.steps.steady, ?_, ?_, ?_, ?_⟩
  · intro response committed
    have outcome := run.steps.commits_iff.mp committed
    refine ⟨outcome, fun later host' => ?_, ?_⟩
    · have more := app.perform_run later run.idle host'
      have kept := more.steps.commitment_eq outcome
      refine ⟨kept, fun other ended => ?_⟩
      exact Option.some.inj ((more.carries other ended).symm.trans kept)
    · rw [replied]
      cases ended : ending with
      | returned verdict => exact .inl (by simp only [replyOf, frame, outcome])
      | halted carried =>
          have same := run.carries carried ended
          exact .inl (congrArg Except.ok (Option.some.inj (same.symm.trans outcome)))
      | faulted fault => exact .inr ⟨fault, ended, by rw [replied, ended]; rfl⟩
  · intro none_committed
    have running : frame.commitment = none := by
      cases outcome : frame.commitment with
      | none => rfl
      | some response => exact absurd (run.steps.commits_iff.mpr outcome) (none_committed response)
    rw [replied]
    cases ended : ending with
    | returned verdict => exact .inl (by simp only [replyOf, running, notFound])
    | halted carried =>
        have carries := run.carries carried ended
        exact absurd (running.symm.trans carries) (by simp)
    | faulted fault => exact .inr ⟨fault, ended, by rw [replied, ended]; rfl⟩
  · intro response ended
    refine ⟨run.steps.commits_iff.mpr (run.carries response ended), ?_⟩
    rw [replied, ended]
    rfl
  · intro bare
    simp only [call, define, bare, Middleware.chain, List.foldr_nil]
    rfl

/-- A halt, a delegation and a clause, each with a later halt that comes to nothing. -/
theorem first_commit_wins_of_offers :
    let first : Response := { body := ascii "first" }
    let other : Application := { handler := some (.halt first) }
    let clause : Program := .on [.truth true] fun _ => .write (ascii "first")
    let later : Program := .halt { body := ascii "second" }
    let request : Request := {}
    let host : Host := ⟨0, [], []⟩
    let Wins (code : Program) (response : Response) : Prop :=
      ((define {} code).dispatch request host).value = .ok response ∧
      Commits (handle {} code request host).2.history response ∧
      (later.perform (environment {}) (handle {} code request host).2 host).value.2.commitment
        = some response
    Wins (.halt first) first ∧ Wins (.delegate other.call) first ∧ Wins clause first.finish := by
  intro first other clause later request host Wins
  have wins (code : Program) (response : Response)
      (offers : code.Offers (environment {}) (.initial request) host response) :
      Wins code response := by
    obtain ⟨halted, commits⟩ := offers.commits rfl
    obtain ⟨_, committed, _, left, _⟩ := first_commit_wins {} code request host
    obtain ⟨_, kept, _⟩ := committed response commits
    exact ⟨(left response halted).2, commits, (kept later host).1⟩
  have completed : ∃ response, clause.Offers (environment {}) (.initial request) host response ∧
      response = first.finish := ⟨_, .clause rfl rfl rfl rfl, rfl⟩
  obtain ⟨_, offers, rfl⟩ := completed
  exact ⟨wins _ _ (.halt first), wins _ _ (.delegate rfl), wins _ _ offers⟩

end Application

end ClauseRouter
