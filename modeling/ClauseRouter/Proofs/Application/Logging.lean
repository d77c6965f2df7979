import ClauseRouter.Application.Logger
import ClauseRouter.Application.Sessions
import ClauseRouter.Proofs.Application.Chain
import ClauseRouter.Proofs.Bytes.Decimal
import ClauseRouter.Proofs.Dispatch.Run

/-!
# Loggers, and faults on their way out

A logger hands on what it is given, in both directions, and writes one line when the reply is there:
the request, and the status and the size of the response or the message of the fault (`LogLine.of_ok`,
`LogLine.of_error`).  Nobody can see the line, so a chain of middlewares does the same with the logger and
without it (`Middleware.logger_alike`, `Middleware.deeds_logger`).

**Faults.**  A fault leaves a dispatch from any depth, unless code on the way recovers from it.
`Scene.Inside` says that a program is performed in the course of another one, in clauses, predicates and
applications to which it delegates, and that no code in between recovers.  Whatever fault the inner
program ends by, the outer one ends by it as well (`Scene.Inside.faulted`).  Middlewares in between have
to hand faults on: `Middleware.Forwards`.
-/

namespace ClauseRouter

/-! ## The logger -/

namespace LogLine

lemma subject_eq (request : Request) :
    subject request = request.method ++ ascii " " ++ request.path ++ ascii " -> " := rfl

/-- **The line of a response** tells its status and the size of its body. -/
lemma of_ok (request : Request) (response : Response) :
    of request (.ok response)
      = ascii "[INFO] " ++ request.method ++ ascii " " ++ request.path ++ ascii " -> "
        ++ ascii (toString response.status) ++ ascii " (" ++ ascii (toString response.body.length)
        ++ ascii " bytes)" := by
  simp only [of, info, subject_eq, Decimal.integer_eq_toString, Decimal.natural_eq_toString,
    List.append_assoc]

/-- **The line of a fault** tells its message. -/
lemma of_error (request : Request) (fault : Fault) :
    of request (.error fault)
      = ascii "[ERROR] " ++ request.method ++ ascii " " ++ request.path ++ ascii " -> "
        ++ fault.message := by
  simp only [of, error, subject_eq, List.append_assoc]

end LogLine

namespace Middleware

variable (endpoint : Endpoint)

/-- What a logger makes of an endpoint is one more line. -/
lemma around_logger (request : Request) (host : Host) :
    logger.around endpoint request host
      = { endpoint request host with
          lines := (endpoint request host).lines
            ++ [.logged (LogLine.of request (endpoint request host).value)] } := rfl

lemma logger_alike : (logger.around endpoint).Alike endpoint := by
  constructor
  · intro request host
    rw [around_logger]
  · intro request host
    rw [around_logger]

/-- **The line of a logger** comes after all that is done behind it. -/
lemma deeds_logger (inner : List Middleware) (request : Request) (host : Host) :
    deeds endpoint (logger :: inner) request host
      = deeds endpoint inner request host
        ++ [.wrote (.logged (LogLine.of request (chain inner endpoint request host).value))] := by
  rw [deeds, logger, Relay.deeds, List.flatMap_cons]
  rfl

end Middleware

/-! ## Middlewares that hand on faults -/

namespace Relay

/-- A relay answers with a fault, whatever it does before, and without a further call. -/
def Answers (fault : Fault) : Relay → Prop
  | answer reply => reply = .error fault
  | pass _ _ => False
  | attend _ next => ∀ host, (next host).Answers fault
  | write _ next => next.Answers fault

/-- A relay hands on the faults of the endpoint behind it. -/
def Forwards : Relay → Prop
  | answer _ => True
  | pass _ next =>
    (∀ fault, (next (.error fault)).Answers fault) ∧ ∀ response, (next (.ok response)).Forwards
  | attend _ next => ∀ host, (next host).Forwards
  | write _ next => next.Forwards

variable {endpoint : Endpoint} {fault : Fault} {inner : Request} {entry : Host}

lemma Answers.value_run {relay : Relay} (answers : relay.Answers fault) (host : Host) :
    (relay.run endpoint host).value = .error fault := by
  induction relay generalizing host with
  | answer reply => exact answers
  | pass request next ih => exact answers.elim
  | attend change next ih => exact ih host (answers host) (change host)
  | write line next ih => exact ih answers host

lemma Answers.not_called {relay : Relay} (answers : relay.Answers fault) (host : Host) :
    .called inner entry ∉ relay.deeds endpoint host := by
  induction relay generalizing host with
  | answer reply => exact List.not_mem_nil
  | pass request next ih => exact answers.elim
  | attend change next ih =>
      intro called
      cases called with
      | tail _ called => exact ih host (answers host) (change host) called
  | write line next ih =>
      intro called
      cases called with
      | tail _ called => exact ih answers host called

/-- **The fault of a call is the answer,** where faults are handed on. -/
lemma Forwards.value_run (faulted : (endpoint inner entry).value = .error fault) {relay : Relay}
    (forwards : relay.Forwards) {host : Host} (called : .called inner entry ∈ relay.deeds endpoint host) :
    (relay.run endpoint host).value = .error fault := by
  induction relay generalizing host with
  | answer reply => cases called
  | pass request next ih =>
      obtain ⟨answers, forwards⟩ := forwards
      rw [run, Hosted.value_bind]
      cases called with
      | head => rw [faulted]; exact (answers fault).value_run _
      | tail _ called =>
          -- another call comes later only where this one gave a response
          cases reply : (endpoint request host).value with
          | error other =>
              rw [reply] at called
              exact absurd called ((answers other).not_called _)
          | ok response =>
              rw [reply] at called
              exact ih _ (forwards response) called
  | attend change next ih =>
      cases called with
      | tail _ called => exact ih host (forwards host) called
  | write line next ih =>
      cases called with
      | tail _ called => exact ih forwards called

end Relay

namespace Middleware

/-- A middleware hands on the faults of the endpoint behind it. -/
def Forwards (middleware : Middleware) : Prop := ∀ request, (middleware request).Forwards

lemma logger_forwards : logger.Forwards := fun _ => ⟨fun _ => rfl, fun _ => trivial⟩

lemma sessions_forwards (cookie : Bytes) (store : Nat) : (sessions cookie store).Forwards := by
  intro request host
  dsimp only
  split
  · trivial
  · refine ⟨fun fault => ?_, fun _ => trivial⟩
    split <;> rfl

/-- **The fault of the endpoint is what a chain answers,** where every middleware hands it on. -/
lemma value_chain_of_faulted {endpoint : Endpoint} {fault : Fault} {inner : Request} {entry : Host}
    (faulted : (endpoint inner entry).value = .error fault) :
    ∀ {middlewares : List Middleware} {request : Request} {host : Host},
      (∀ m ∈ middlewares, m.Forwards) →
        .called inner entry ∈ deeds endpoint middlewares request host →
          (chain middlewares endpoint request host).value = .error fault
  | [], _, _, _, called => by
      cases List.mem_singleton.mp called
      exact faulted
  | middleware :: rest, request, host, forwards, called => by
      obtain ⟨first, others⟩ := List.forall_mem_cons.mp forwards
      obtain ⟨deed, done, opened⟩ := List.mem_flatMap.mp called
      cases deed with
      | called between entered =>
          have behind := value_chain_of_faulted faulted others opened
          exact (first request).value_run behind done
      | attended left => cases List.mem_singleton.mp opened
      | wrote line => cases List.mem_singleton.mp opened

end Middleware

/-! ## Faults in a dispatch -/

/-- Behind matchers that have passed the others are tried. -/
lemma Matcher.value_evaluateAll_append (behind : List Matcher) :
    ∀ {before : List Matcher} {frame after : Frame} {host : Host},
      (evaluateAll before frame host).value = (.returned true, after) →
        (evaluateAll (before ++ behind) frame host).value
          = (evaluateAll behind after (evaluateAll before frame host).host).value
  | [], _, _, _, passed => by
      cases passed
      rfl
  | first :: others, frame, _, host, passed => by
      simp only [List.cons_append, evaluateAll, bind] at passed ⊢
      generalize first.evaluate (frame.note .tried) host = tried at passed ⊢
      obtain ⟨⟨⟨ending, found⟩, reached⟩, entry, more⟩ := tried
      cases ending with
      | returned verdict =>
          cases verdict with
          | false => cases passed
          | true => exact value_evaluateAll_append behind passed
      | halted response => cases passed
      | faulted fault => cases passed

/-- A fault in a predicate is one of all the matchers that are tried. -/
lemma Matcher.faulted_evaluateAll {matcher : Matcher} {before : List Matcher} {frame after : Frame}
    {host : Host} {run : Frame → Hosted (Ending × Frame)} {fault : Fault}
    (passed : (evaluateAll before frame host).value = (.returned true, after))
    (test : matcher.test = .code run)
    (faulted : (run (after.note .tried) (evaluateAll before frame host).host).value.1
      = .faulted fault) (behind : List Matcher) :
    (evaluateAll (before ++ matcher :: behind) frame host).value.1 = .faulted fault := by
  rw [value_evaluateAll_append _ passed]
  simp only [evaluateAll, evaluate, test, Hosted.value_bind, Hosted.value_pure, faulted]

namespace Frame

variable {frame : Frame} {host : Host} {matchers : List Matcher}
  {body : Captures → Frame → Hosted (Ending × Frame)} {fault : Fault}

/-- A fault in the matchers is one of the clause. -/
lemma faulted_tryClause (running : frame.commitment = none)
    (faulted : (Matcher.evaluateAll matchers frame.openClause host).value.1 = .faulted fault) :
    (frame.tryClause matchers body host).value.1 = .faulted fault := by
  simp only [tryClause, running, tryClause.attemptClause, Hosted.value_bind, Hosted.value_pure, faulted]

/-- And so is a fault in the body. -/
lemma faulted_tryClause_of_body (running : frame.commitment = none) {after : Frame}
    (passed : (Matcher.evaluateAll matchers frame.openClause host).value = (.returned true, after))
    (faulted : (body after.captures (after.note (.entered after.captures))
      (Matcher.evaluateAll matchers frame.openClause host).host).value.1 = .faulted fault) :
    (frame.tryClause matchers body host).value.1 = .faulted fault := by
  simp only [tryClause, running, tryClause.attemptClause, Hosted.value_bind, Hosted.value_pure, passed,
    faulted]

end Frame

/-- Whatever fault an endpoint answers with, code that delegates to it ends by. -/
lemma Frame.faulted_delegate {endpoint : Endpoint} {frame : Frame} {host : Host} {fault : Fault}
    (faulted : (endpoint frame.request host).value = .error fault) :
    (frame.delegate endpoint host).value.1 = .faulted fault := by
  have replied : (endpoint (frame.note .delegated).request host).value = .error fault := faulted
  simp only [delegate, Hosted.value_bind, replied, Hosted.value_pure]

lemma Application.error_dispatch {app : Application} {handler : Program} {request : Request}
    {host : Host} {fault : Fault} (defined : app.handler = some handler)
    (faulted : (app.handle handler request host).1 = .faulted fault) :
    (app.dispatch request host).value = .error fault := by
  rw [value_dispatch defined, faulted]
  rfl

/-- A program that is performed in a frame and a host. -/
structure Scene where
  env : Environment
  code : Program
  frame : Frame
  host : Host

namespace Scene

/-- What a scene leaves. -/
def outcome (scene : Scene) : Outcome (Ending × Frame) :=
  scene.code.perform scene.env scene.frame scene.host

/-- A scene ends by a fault. -/
def Faults (scene : Scene) (fault : Fault) : Prop := scene.outcome.value.1 = .faulted fault

/-- **A scene is part of another one,** at any depth, and no code around it recovers from its faults. -/
inductive Inside (scene : Scene) : Scene → Prop
  | here : Inside scene scene
  | first {env : Environment} {first second : Program} {frame : Frame} {host : Host}
      (inside : Inside scene ⟨env, first, frame, host⟩) :
      Inside scene ⟨env, .seq first second, frame, host⟩
  | second {env : Environment} {first second : Program} {frame after : Frame} {host left : Host}
      {verdict : Bool} {lines : List Line}
      (returned : first.perform env frame host = ⟨(.returned verdict, after), left, lines⟩)
      (inside : Inside scene ⟨env, second, after, left⟩) :
      Inside scene ⟨env, .seq first second, frame, host⟩
  | observed {env : Environment} {next : View → Program} {frame : Frame} {host : Host}
      (inside : Inside scene
        ⟨env, next (frame.view env.settings host), frame.note .observed, host⟩) :
      Inside scene ⟨env, .observe next, frame, host⟩
  /-- A predicate that is tried in a clause. -/
  | condition {env env' : Environment} {clause : List Condition} {body : Captures → Program}
      {code : Program} {before behind : List Matcher} {matcher : Matcher} {frame after : Frame}
      {host left : Host} {lines : List Line}
      (prepared : prepareAll env frame.request clause = .ok (before ++ matcher :: behind))
      (running : frame.commitment = none)
      (passed : Matcher.evaluateAll before frame.openClause host
        = ⟨(.returned true, after), left, lines⟩)
      (test : matcher.test = .code (code.perform env'))
      (inside : Inside scene ⟨env', code, after.note .tried, left⟩) :
      Inside scene ⟨env, .on clause body, frame, host⟩
  /-- The body of a clause that is entered. -/
  | body {env : Environment} {clause : List Condition} {body : Captures → Program}
      {matchers : List Matcher} {frame after : Frame} {host left : Host} {lines : List Line}
      (prepared : prepareAll env frame.request clause = .ok matchers)
      (running : frame.commitment = none)
      (passed : Matcher.evaluateAll matchers frame.openClause host
        = ⟨(.returned true, after), left, lines⟩)
      (inside : Inside scene
        ⟨env, body after.captures, after.note (.entered after.captures), left⟩) :
      Inside scene ⟨env, .on clause body, frame, host⟩
  /-- A predicate that is tried outside a clause. -/
  | probed {env env' : Environment} {condition : Condition} {next : ProbeReport → Program} {code : Program}
      {matcher : Matcher} {frame : Frame} {host : Host}
      (prepared : condition.prepare env frame.request = .ok matcher)
      (test : matcher.test = .code (code.perform env'))
      (inside : Inside scene ⟨env', code, frame, host⟩) :
      Inside scene ⟨env, .probe condition next, frame, host⟩
  | next {env : Environment} {condition : Condition} {next : ProbeReport → Program} {matcher : Matcher}
      {frame after : Frame} {host left : Host} {passed : Bool} {found : Captures} {lines : List Line}
      (prepared : condition.prepare env frame.request = .ok matcher)
      (tried : matcher.evaluate frame host = ⟨(⟨.returned passed, found⟩, after), left, lines⟩)
      (inside : Inside scene
        ⟨env, next ⟨matcher.kind, matcher.pattern, passed, found⟩, after, left⟩) :
      Inside scene ⟨env, .probe condition next, frame, host⟩
  /-- Code that recovers from something else. -/
  | recovered {env : Environment} {attempted : Program} {scope : Scope} {recover : Caught → Program}
      {ending : Ending} {caught : Caught} {frame after : Frame} {host left : Host} {lines : List Line}
      (ended : attempted.perform env frame host = ⟨(ending, after), left, lines⟩)
      (catches : ending.caught? scope = some caught)
      (inside : Inside scene ⟨env, recover caught, after, left⟩) :
      Inside scene ⟨env, .attempt attempted scope recover, frame, host⟩
  /-- The dispatch of an application that is delegated to. -/
  | delegated {env : Environment} {app : Application} {handler : Program} {frame : Frame}
      {host entry : Host} {request : Request}
      (forwards : ∀ m ∈ app.middlewares, m.Forwards) (defined : app.handler = some handler)
      (reached : .called request entry ∈ app.deeds frame.request host)
      (inside : Inside scene ⟨app.environment, handler, .initial request, entry⟩) :
      Inside scene ⟨env, .delegate app.call, frame, host⟩

/-- **A fault leaves a scene from any depth,** where no code recovers from it. -/
lemma Inside.faulted {scene outer : Scene} {fault : Fault} (inside : scene.Inside outer)
    (faults : scene.Faults fault) : outer.Faults fault := by
  induction inside with
  | here => exact faults
  | first inside ih =>
      simp only [Faults, outcome, Program.perform, Hosted.value_bind] at ih ⊢
      rw [ih]
      rfl
  | second returned inside ih =>
      simp only [Faults, outcome, Program.perform, bind, returned] at ih ⊢
      exact ih
  | observed inside ih => exact ih
  | condition prepared running passed test inside ih =>
      simp only [Faults, outcome, Program.perform, prepared]
      refine Frame.faulted_tryClause running
        (Matcher.faulted_evaluateAll (congrArg Outcome.value passed) test ?_ _)
      rw [passed]
      exact ih
  | body prepared running passed inside ih =>
      simp only [Faults, outcome, Program.perform, prepared]
      refine Frame.faulted_tryClause_of_body running (congrArg Outcome.value passed) ?_
      rw [passed]
      exact ih
  | probed prepared test inside ih =>
      have ended := ih
      simp only [Faults, outcome] at ended
      simp only [Faults, outcome, Program.perform, prepared, Matcher.evaluate, test,
        Hosted.value_bind, Hosted.value_pure, ended]
  | next prepared tried inside ih =>
      simp only [Faults, outcome, Program.perform, prepared, bind, tried] at ih ⊢
      exact ih
  | recovered ended catches inside ih =>
      simp only [Faults, outcome, Program.perform, bind, ended, catches] at ih ⊢
      exact ih
  | delegated forwards defined reached inside ih =>
      have dispatched := Application.error_dispatch defined ih
      exact Frame.faulted_delegate (Middleware.value_chain_of_faulted dispatched forwards reached)

end Scene

namespace Application

/-- **A logger changes nothing but the log, and faults pass it.**

* With a logger at any place of the chain the reply and the host are the same as without it, and so is
  all that happens on the way, but for one line whenever the logger is entered.  That line comes after
  what is done behind the logger, and tells of the request that it was given and of the reply that came
  back.
* The line of a response is `[INFO]` with the method and the path, then the status and the size of the body
  in decimal; that of a fault is `[ERROR]` with the method and the path, then the message.
* What happens on the way is all that happens.
* A fault that ends code in a dispatch, at any depth, is the reply of the application, if all the
  middlewares in between hand it on.  Loggers and session middlewares do. -/
theorem logger_transparent :
    (∀ (app : Application) (outer inner : List Middleware) (request : Request) (host : Host),
      let silent : Application := { app with middlewares := outer ++ inner }
      let logged : Application := { app with middlewares := outer ++ .logger :: inner }
      let behind : Application := { app with middlewares := inner }
      let entries := Middleware.deeds (Middleware.logger.around behind.call) outer request host
      (logged.call request host).value = (silent.call request host).value ∧
      (logged.call request host).host = (silent.call request host).host ∧
      silent.deeds request host = entries.flatMap (Deed.unfolded behind.deeds) ∧
      logged.deeds request host = entries.flatMap (Deed.unfolded fun request host =>
        behind.deeds request host
          ++ [.wrote (.logged (LogLine.of request (behind.call request host).value))])) ∧
    (∀ (request : Request) (response : Response), LogLine.of request (.ok response)
      = ascii "[INFO] " ++ request.method ++ ascii " " ++ request.path ++ ascii " -> "
        ++ ascii (toString response.status) ++ ascii " (" ++ ascii (toString response.body.length)
        ++ ascii " bytes)") ∧
    (∀ (request : Request) (fault : Fault), LogLine.of request (.error fault)
      = ascii "[ERROR] " ++ request.method ++ ascii " " ++ request.path ++ ascii " -> "
        ++ fault.message) ∧
    (∀ (app : Application) (request : Request) (host : Host),
      Deed.Lead app.dispatch host (app.deeds request host) (app.call request host).host
        (app.call request host).lines) ∧
    (Middleware.logger.Forwards ∧ ∀ cookie store, (Middleware.sessions cookie store).Forwards) ∧
    ∀ {app : Application} {handler : Program} {request inner : Request} {host entry : Host}
      {scene : Scene} {fault : Fault}, (∀ m ∈ app.middlewares, m.Forwards) →
      app.handler = some handler → .called inner entry ∈ app.deeds request host →
        scene.Inside ⟨app.environment, handler, .initial inner, entry⟩ → scene.Faults fault →
          (app.call request host).value = .error fault := by
  refine ⟨?inserted, LogLine.of_ok, LogLine.of_error,
    fun app => Middleware.lead_chain app.dispatch app.middlewares,
    ⟨Middleware.logger_forwards, Middleware.sessions_forwards⟩, ?passes⟩
  case inserted =>
    intro app outer inner request host silent logged behind entries
    have alike := Middleware.logger_alike behind.call
    have around := Middleware.chain_alike alike outer
    have loggedCall : logged.call
        = Middleware.chain outer (Middleware.logger.around behind.call) :=
      Middleware.chain_append outer (.logger :: inner) app.dispatch
    have silentCall : silent.call = Middleware.chain outer behind.call :=
      Middleware.chain_append outer inner app.dispatch
    have line : Middleware.deeds app.dispatch (.logger :: inner) = fun request host =>
        behind.deeds request host
          ++ [.wrote (.logged (LogLine.of request (behind.call request host).value))] :=
      funext fun request => funext fun host =>
        Middleware.deeds_logger app.dispatch inner request host
    refine ⟨?_, ?_, ?_, ?_⟩
    · rw [loggedCall, silentCall, around.value]
    · rw [loggedCall, silentCall, around.host]
    · rw [show entries = Middleware.deeds behind.call outer request host by
        rw [← Middleware.deeds_congr alike outer]]
      exact Middleware.deeds_append app.dispatch inner outer request host
    · rw [← line]
      exact Middleware.deeds_append app.dispatch (.logger :: inner) outer request host
  case passes =>
    intro app handler request inner host entry scene fault forwards defined reached inside faults
    exact Middleware.value_chain_of_faulted (error_dispatch defined (inside.faulted faults)) forwards
      reached

/-- A fault in a clause of an application to which a clause of another one delegates, with two loggers and
a session middleware on the way; and a clause that is completed behind a logger. -/
theorem logger_transparent_of_nested_fault :
    let fault : Fault := .unknownMatcher (ascii "weekday")
    let last : Application :=
      { handler := some (.on [] fun _ => .raise fault), middlewares := [.logger] }
    let route : Program := .on [.template (ascii "a")] fun _ => .delegate last.call
    let first : Application :=
      { handler := some route, middlewares := [.logger, .sessions (ascii "sid") 0] }
    let greeting : Application :=
      { handler := some (.on [] fun _ => .write (ascii "hello")), middlewares := [.logger] }
    let request : Request :=
      { method := ascii "GET", path := ascii "/a/b", cursor := .atStart (ascii "/a/b") }
    let host : Host := ⟨0, [7], [{ timeout := 300 }]⟩
    (first.call request host).value = .error fault ∧
    (last.call request host).lines
      = [.logged (ascii "[ERROR] GET /a/b -> unknown matcher: weekday")] ∧
    (greeting.call request host).lines = [.logged (ascii "[INFO] GET /a/b -> 200 (5 bytes)")] := by
  intro fault last route first greeting request host
  obtain ⟨_, told, toldFault, _, ⟨logger, sessions⟩, passes⟩ := logger_transparent
  have forwards : ∀ m ∈ first.middlewares, m.Forwards := by
    intro m mem
    rcases List.mem_cons.mp mem with rfl | mem
    · exact logger
    · rw [List.mem_singleton.mp mem]
      exact sessions _ _
  have forwards' : ∀ m ∈ last.middlewares, m.Forwards := by
    intro m mem
    rw [List.mem_singleton.mp mem]
    exact logger
  have raised : ∃ inner entry, .called inner entry ∈ first.deeds request host ∧
      ∃ scene : Scene, scene.Inside ⟨first.environment, route, .initial inner, entry⟩ ∧
        scene.Faults fault :=
    ⟨_, _, .tail _ (.head _), ⟨_, .raise fault, _, _⟩,
      .body rfl rfl rfl (.delegated forwards' rfl (.head _) (.body rfl rfl rfl .here)), rfl⟩
  obtain ⟨inner, entry, reached, scene, inside, faults⟩ := raised
  have replied : ∃ response, (greeting.dispatch request host).value = .ok response ∧
      response.status = 200 ∧ response.body.length = 5 := ⟨_, rfl, rfl, rfl⟩
  obtain ⟨response, replied, status, length⟩ := replied
  refine ⟨passes forwards rfl reached inside faults, ?_, ?_⟩
  · have line : (last.call request host).lines = [.logged (LogLine.of request (.error fault))] := rfl
    rw [line, toldFault]
    rfl
  · have line : (greeting.call request host).lines
        = [.logged (LogLine.of request (greeting.dispatch request host).value)] := rfl
    rw [line, replied, told, status, length]
    rfl

end Application

end ClauseRouter
