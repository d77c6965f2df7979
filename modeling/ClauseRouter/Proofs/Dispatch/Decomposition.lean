import ClauseRouter.Application.Logger
import ClauseRouter.Application.Sessions
import ClauseRouter.Proofs.Dispatch.Run

/-!
# The path through a dispatch

What matchers have consumed and what remains for them make up the path, at every moment of a dispatch:
matchers move bytes between the two, and a clause puts them back.  Only handler code can leave the path,
by assigning the two parts.

**One dispatch.**  `Conduct.along` is the conduct of code that keeps the request on its path, and to be
`Frame.Along` a path is a lawful contract for it.  Code that never assigns the parts is of that conduct
(`Conduct.sparing_within`), and so is code that puts them back as it found them (`Program.guarded`).

**Clauses.**  Whatever its matchers, its predicates and its body do, a clause leaves the cursor where it
was (`Program.cursor_on`), and so does guarded code (`Program.cursor_guarded`).

**Applications that call each other.**  `Application.Occurs` are the moments of a dispatch and of all the
dispatches inside it; a request gets to those through middlewares, which ask for nothing else
(`Middleware.Relays`, `Middleware.chain_congr`).
`Application.path_decomposed` says that all of them are on one path.
-/

namespace ClauseRouter

/-! ## One dispatch -/

/-- The conduct of code that keeps a request on a path, once it is there. -/
def Conduct.along (path : Bytes) : Conduct where
  amends change :=
    ∀ request : Request, request.cursor.path = path → (change request).cursor.path = path
  sees view := view.request.cursor.path = path
  swallows := True

/-- The conduct of code that never assigns the two parts of the path. -/
def Conduct.sparing : Conduct where
  amends change := ∀ request : Request, (change request).cursor = request.cursor
  sees _ := True
  swallows := True

lemma Conduct.sparing_within (path : Bytes) : sparing.Within (along path) where
  amends change spares request on := by rw [spares, on]
  sees _ _ := trivial
  swallows := id

namespace Frame

/-- The request is on a path, and was at every moment so far. -/
structure Along (path : Bytes) (frame : Frame) : Prop where
  now : frame.request.cursor.path = path
  before : ∀ moment ∈ frame.history, moment.stage.request.cursor.path = path

namespace Along

variable {path : Bytes} {frame : Frame}

lemma initial {request : Request} (start : request.cursor.path = path) :
    (Frame.initial request).Along path :=
  ⟨start, fun _ mem => by cases mem⟩

lemma become (h : frame.Along path) {event : Event} {stage : Stage}
    (same : stage.request.cursor.path = path) : (frame.become event stage).Along path := by
  refine ⟨same, fun moment mem => ?_⟩
  rw [history_become, List.mem_append, List.mem_singleton] at mem
  rcases mem with mem | rfl
  · exact h.before moment mem
  · exact same

/-- Code that begins on a path never leaves it. -/
def contract (path : Bytes) : Contract where
  pre := Along path
  post _ _ := Along path
  chosen _ := Along path

/-- **To stay on a path is a lawful contract** for the conduct that asks for it. -/
lemma lawful (path : Bytes) : (contract path).Lawful (.along path) where
  stay along _ := along
  observe h := h.become h.now
  view along _ _ := along.now
  respond h _ := h.become h.now
  amend h _ allowed := h.become (allowed _ h.now)
  move h _ along := h.become (along.trans h.now)
  capture h _ := h.become h.now
  delegate along := along.become along.now
  commit along response := by
    unfold Frame.commit
    split
    · exact along
    · exact along.become along.now
  next h _ := h
  trans _ h' := h'
  openClause along _ := along.become along.now
  select h event _ := ⟨h.become h.now, fun h' => h'⟩
  pass h := h.become h.now
  restore begun _ h := h.become begun.now

end Along

end Frame

/-! ## Clauses and guards -/

lemma Frame.request_commit (frame : Frame) (response : Response) :
    (frame.commit response).2.request = frame.request := by
  unfold Frame.commit
  split <;> rfl

lemma Frame.cursor_tryClause (frame : Frame) (matchers : List Matcher)
    (body : Captures → Frame → Hosted (Ending × Frame)) (host : Host) :
    (frame.tryClause matchers body host).value.2.request.cursor = frame.request.cursor := by
  cases running : frame.commitment with
  | some outcome => simp only [tryClause, running, Hosted.value_pure]
  | none =>
      simp only [tryClause, running, Hosted.value_bind, Hosted.value_pure]
      rfl

namespace Program

/-- **A clause puts the cursor back,** however it ends and whatever its conditions and its body do. -/
lemma cursor_on (env : Environment) (clause : List Condition) (body : Captures → Program)
    (frame : Frame) (host : Host) :
    ((on clause body).perform env frame host).value.2.request.cursor = frame.request.cursor := by
  cases made : prepareAll env frame.request clause with
  | error fault => simp only [perform, made, Hosted.value_pure]
  | ok matchers =>
      simp only [perform, made]
      exact frame.cursor_tryClause _ _ host

/-- Leaves once more by what was caught. -/
def again : Caught → Program
  | .fault fault => raise fault
  | .commit response => halt response

/-- Code behind which the cursor is put back, however it ends. -/
def guarded (code : Program) : Program :=
  observe fun view =>
    let back : Program := amend fun request => { request with cursor := view.request.cursor }
    seq (attempt code .everything fun caught => seq back (again caught)) back

/-- Guarded code puts the cursor back, whatever it does. -/
lemma cursor_guarded (env : Environment) (code : Program) (frame : Frame) (host : Host) :
    (code.guarded.perform env frame host).value.2.request.cursor = frame.request.cursor := by
  simp only [guarded, perform, Hosted.value_bind]
  generalize code.perform env (frame.note .observed) _ = outcome
  obtain ⟨⟨ending, after⟩, host', _⟩ := outcome
  cases ending with
  | returned verdict => rfl
  | faulted fault => rfl
  | halted response =>
      simp only [Ending.caught?, if_true, again, perform, Hosted.value_bind, Hosted.value_pure]
      -- the signal is sent once more after the cursor was put back
      generalize signalled : Frame.commit _ response = outcome
      have kept : outcome.2.request.cursor = frame.request.cursor := by
        rw [← signalled, Frame.request_commit]
        rfl
      obtain ⟨ending, ended⟩ := outcome
      cases ending with
      | returned verdict => rfl
      | halted response => exact kept
      | faulted fault => exact kept

/-- Code that is guarded stays on a path if the code itself does. -/
lemma Obeys.guarded {path : Bytes} {code : Program} (h : code.Obeys (.along path)) :
    code.guarded.Obeys (.along path) := by
  intro view seen
  have back : ∀ request : Request, request.cursor.path = path →
      ({ request with cursor := view.request.cursor } : Request).cursor.path = path :=
    fun _ _ => seen
  refine ⟨⟨h, fun _ => trivial, fun caught => ⟨back, ?_⟩⟩, back⟩
  cases caught <;> trivial

end Program

/-! ## Middlewares -/

namespace Relay

/-- A relay may call the endpoint behind it with a request. -/
inductive Passes : Relay → Request → Prop
  | here (request : Request) (next : Reply → Relay) : Passes (.pass request next) request
  | later {first request : Request} {next : Reply → Relay} {reply : Reply}
      (h : Passes (next reply) request) : Passes (.pass first next) request
  | attend {change : Host → Host} {next : Host → Relay} {host : Host} {request : Request}
      (h : Passes (next host) request) : Passes (.attend change next) request
  | write {line : Line} {next : Relay} {request : Request} (h : Passes next request) :
      Passes (.write line next) request

/-- A relay asks the endpoint for nothing but the requests that it may pass on. -/
lemma run_congr {endpoint other : Endpoint} : ∀ {relay : Relay},
    (∀ request, relay.Passes request → endpoint request = other request) →
      relay.run endpoint = relay.run other
  | .answer _, _ => rfl
  | .pass request next, same => by
      have rest : ∀ reply, (next reply).run endpoint = (next reply).run other := fun reply =>
        run_congr fun request passes => same request (.later passes)
      simp only [run, same request (.here request next), rest]
  | .attend change next, same => by
      have rest : ∀ host, (next host).run endpoint = (next host).run other := fun host =>
        run_congr fun request passes => same request (.attend passes)
      simp only [run, rest]
  | .write line next, same => by
      simp only [run, run_congr fun request passes => same request (.write passes)]

end Relay

namespace Middleware

/-- The requests that middlewares around an endpoint may call it with. -/
inductive Relays : List Middleware → Request → Request → Prop
  | none (request : Request) : Relays [] request request
  | through {middleware : Middleware} {rest : List Middleware} {request between inner : Request}
      (first : (middleware request).Passes between) (others : Relays rest between inner) :
      Relays (middleware :: rest) request inner

/-- A list of middlewares asks the endpoint for nothing else. -/
lemma chain_congr {endpoint other : Endpoint} {middlewares : List Middleware} {request : Request}
    (same : ∀ inner, Relays middlewares request inner → endpoint inner = other inner) :
    chain middlewares endpoint request = chain middlewares other request := by
  induction middlewares generalizing request with
  | nil => exact same request (.none request)
  | cons middleware rest ih =>
      exact Relay.run_congr fun between passes =>
        ih fun inner relays => same inner (.through passes relays)

/-- A middleware leaves the two parts of the path alone in all that it passes on. -/
def Spares (middleware : Middleware) : Prop :=
  ∀ request inner, (middleware request).Passes inner → inner.cursor = request.cursor

/-- A middleware keeps what it passes on on a path. -/
def StaysOn (path : Bytes) (middleware : Middleware) : Prop :=
  ∀ request inner, request.cursor.path = path → (middleware request).Passes inner →
    inner.cursor.path = path

lemma Spares.staysOn {middleware : Middleware} (h : middleware.Spares) (path : Bytes) :
    middleware.StaysOn path := by
  intro request inner on passes
  rw [h request inner passes, on]

lemma logger_spares : logger.Spares := by
  intro request inner passes
  cases passes with
  | here => rfl
  | later passes =>
      cases passes with
      | write passes => cases passes

lemma sessions_spares (cookie : Bytes) (store : Nat) : (sessions cookie store).Spares := by
  intro request inner passes
  cases passes with
  | @attend _ _ host _ passes =>
      dsimp only at passes
      split at passes
      · cases passes
      · cases passes with
        | here => rfl
        | later passes => cases passes

lemma Relays.path_eq {path : Bytes} {middlewares : List Middleware} {request inner : Request}
    (relays : Relays middlewares request inner)
    (stay : ∀ middleware ∈ middlewares, middleware.StaysOn path)
    (on : request.cursor.path = path) : inner.cursor.path = path := by
  induction relays with
  | none request => exact on
  | through first others ih =>
      obtain ⟨outermost, rest⟩ := List.forall_mem_cons.mp stay
      exact ih rest (outermost _ _ on first)

end Middleware

/-! ## Applications that call each other -/

namespace Application

/-- The code of an application keeps requests on a path. -/
structure StaysOn (path : Bytes) (app : Application) : Prop where
  handler : ∀ handler, app.handler = some handler → handler.Obeys (.along path)
  names : app.Obeys (.along path)
  middlewares : ∀ middleware ∈ app.middlewares, middleware.StaysOn path

/-- The code of an application never assigns the two parts of the path. -/
structure Spares (app : Application) : Prop where
  handler : ∀ handler, app.handler = some handler → handler.Obeys .sparing
  names : app.Obeys .sparing
  middlewares : ∀ middleware ∈ app.middlewares, middleware.Spares

lemma Spares.staysOn {app : Application} (h : app.Spares) (path : Bytes) : app.StaysOn path where
  handler handler defined := (h.handler handler defined).mono (Conduct.sparing_within path)
  names := h.names.mono (Conduct.sparing_within path)
  middlewares middleware mem := (h.middlewares middleware mem).staysOn path

/-- An application that has nothing but a handler. -/
lemma spares_of_handler (handler : Program) (h : handler.Obeys .sparing) :
    Spares { handler := some handler } where
  handler _ defined := Option.some.inj defined ▸ h
  names _ _ known := by cases known
  middlewares _ mem := by cases mem

/-- **The moments of a dispatch** of an application on a request, in any host: those of the dispatch itself,
and those of the dispatches of other applications that are called at one of them. -/
inductive Occurs (among : Application → Prop) : Application → Request → Moment → Prop
  | own {app : Application} {handler : Program} (defined : app.handler = some handler)
      {request : Request} {host : Host} {moment : Moment}
      (mem : moment ∈ (app.handle handler request host).2.history) :
      Occurs among app request moment
  | inside {app other : Application} {request inner : Request} {call moment : Moment}
      (calls : Occurs among app request call) (delegated : call.event = .delegated)
      (member : among other) (relays : Middleware.Relays other.middlewares call.stage.request inner)
      (occurs : Occurs among other inner moment) : Occurs among app request moment

lemma along_handle {path : Bytes} {app : Application} (stays : app.StaysOn path) {handler : Program}
    (defined : app.handler = some handler) {request : Request} (start : request.cursor.path = path)
    (host : Host) : (app.handle handler request host).2.Along path := by
  have keeps := app.environment_keeps (Frame.Along.lawful path) stays.names
  exact handler.perform_keeps (Frame.Along.lawful path) keeps (stays.handler handler defined) _ host
    (.initial start)

/-- **The path is decomposed at every moment, and restored by every clause.**

Where applications keep requests on the path on which a dispatch starts, the two parts of the path make
it up at every moment, also in the dispatches inside.  A chain of middlewares asks the endpoint for nothing
but the requests that it relays, so there are no other dispatches inside.

Applications whose code never assigns the two parts keep requests on the path.  Loggers and session
middlewares never assign them, and it makes no difference if code is guarded.

However a clause ends, and whatever its conditions and its body do, the two parts are then as they
were when it was tried; and so they are behind code that is guarded. -/
theorem path_decomposed :
    (∀ {path : Bytes} {among : Application → Prop}, (∀ app, among app → app.StaysOn path) →
      ∀ {app : Application} {request : Request} {moment : Moment}, among app →
        request.cursor.path = path → Occurs among app request moment →
          moment.stage.request.cursor.path = path) ∧
    (∀ {endpoint other : Endpoint} {middlewares : List Middleware} {request : Request},
      (∀ inner, Middleware.Relays middlewares request inner → endpoint inner = other inner) →
        Middleware.chain middlewares endpoint request = Middleware.chain middlewares other request) ∧
    (∀ {app : Application}, app.Spares → ∀ path, app.StaysOn path) ∧
    (Middleware.logger.Spares ∧ ∀ cookie store, (Middleware.sessions cookie store).Spares) ∧
    (∀ {path : Bytes} {code : Program}, code.Obeys (.along path) →
      code.guarded.Obeys (.along path)) ∧
    (∀ (env : Environment) (code : Program) (frame : Frame) (host : Host),
      (code.guarded.perform env frame host).value.2.request.cursor = frame.request.cursor) ∧
    ∀ (env : Environment) (clause : List Condition) (body : Captures → Program) (frame : Frame)
      (host : Host),
      ((Program.on clause body).perform env frame host).value.2.request.cursor
        = frame.request.cursor := by
  refine ⟨?_, Middleware.chain_congr, fun spares => spares.staysOn,
    ⟨Middleware.logger_spares, Middleware.sessions_spares⟩, fun obeys => obeys.guarded,
    Program.cursor_guarded, Program.cursor_on⟩
  intro path among stay app request moment member start occurs
  -- over the nesting of dispatches: what is called starts on the path because the caller is on it
  induction occurs with
  | own defined mem => exact (along_handle (stay _ member) defined start _).before _ mem
  | inside calls delegated other relays occurs ih ih' =>
      have called := ih member start
      exact ih' other (relays.path_eq (stay _ other).middlewares called)

/-- A clause that delegates to an application, which takes the rest of the path; and a clause whose
predicate takes the request off the path. -/
theorem path_decomposed_of_delegation :
    let last : Program := .on [.template (ascii "b")] fun _ => .skip
    let first : Program :=
      .on [.template (ascii "a")] fun _ => .delegate (call { handler := some last })
    let lost : Program := .amend fun request => { request with cursor := .atStart [] }
    let request : Request := { cursor := .atStart (ascii "/a/b") }
    (∃ moment, Occurs (·.StaysOn (ascii "/a/b")) { handler := some first } request moment ∧
      moment.stage.request.cursor.consumed = ascii "/a/b" ∧
      moment.stage.request.cursor.path = ascii "/a/b") ∧
    ((Program.on [.check lost] fun _ => .skip).perform (environment {}) (.initial request)
      ⟨0, [], []⟩).value.2.request.cursor.remaining = ascii "/a/b" := by
  intro last first lost request
  obtain ⟨decomposed, _, spare, _, _, _, restored⟩ := path_decomposed
  have lastStays : StaysOn (ascii "/a/b") { handler := some last } :=
    spare (spares_of_handler last ⟨⟨trivial, trivial⟩, fun _ => trivial⟩) _
  have firstStays : StaysOn (ascii "/a/b") { handler := some first } :=
    spare (spares_of_handler first ⟨⟨trivial, trivial⟩, fun _ => trivial⟩) _
  have happens : ∃ calling ∈ (handle { handler := some first } first request ⟨0, [], []⟩).2.history,
      calling.event = .delegated ∧
        ∃ moment ∈ (handle { handler := some last } last calling.stage.request ⟨0, [], []⟩).2.history,
          moment.stage.request.cursor.consumed = ascii "/a/b" := by
    decide +kernel
  obtain ⟨calling, mem, delegated, moment, mem', consumed⟩ := happens
  have occurs : Occurs (·.StaysOn (ascii "/a/b")) { handler := some first } request moment :=
    .inside (.own rfl mem) delegated lastStays (.none _) (.own rfl mem')
  have kept := restored (environment {}) [.check lost] (fun _ => .skip) (.initial request) ⟨0, [], []⟩
  exact ⟨⟨moment, occurs, consumed, decomposed (fun _ stays => stays) firstStays rfl occurs⟩,
    congrArg Cursor.remaining kept⟩

end Application

end ClauseRouter
