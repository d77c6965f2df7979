import ClauseRouter.Application.Middleware
import ClauseRouter.Dispatch.Perform

/-!
# Applications

An application answers requests: its middlewares stand around a dispatch, which runs the handler in a
frame of its own.

* `Application.dispatch` — the handler alone.  What was committed is the answer; where nothing was, the
  response that the handler left, with the status of what was not found.
* `Application.call` — the middlewares in the order of their registration, then the dispatch;
  `Application.callFrom` walks through them by positions.
* `Application.defineMatcher`, `Application.use` — what an application refuses.

**Named matchers.**  A name stands for a function from an argument to a condition.  Such a condition
may use other names, so resolving a name may resolve others; `Application.depthLimit` bounds how deep
that goes.
-/

namespace ClauseRouter

/-- The conditions that an application knows by name. -/
abbrev MatcherNames := Dict (Bytes → Condition)

/-- An application. -/
structure Application where
  handler : Option Program := none
  settings : Settings := Dict.empty
  /-- The middlewares, outermost first. -/
  middlewares : List Middleware := []
  names : MatcherNames := Dict.empty

namespace Application

/-! ## Dispatch -/

/-- How deep named matchers may use each other. -/
def depthLimit : Nat := 1024

/-- The matcher of a name, where names may be used a given number of levels deep. -/
def resolve (settings : Settings) (names : MatcherNames) :
    Nat → (name argument : Bytes) → Request → Except Fault Matcher
  | 0, _, _, _ => .error .tooDeep
  | depth + 1, name, argument, request =>
    match names.get? name with
    | none => .error (.unknownMatcher name)
    | some condition =>
      (condition argument).prepare { settings, named := resolve settings names depth } request

/-- What the handler can ask of the application. -/
def environment (app : Application) : Environment where
  settings := app.settings
  named := resolve app.settings app.names depthLimit

/-- The status of a request that nothing committed a response to. -/
def notFound : Int := 404

/-- The reply that an ending leaves. -/
def replyOf : Ending → Frame → Reply
  | .halted response, _ => .ok response
  | .faulted fault, _ => .error fault
  | .returned _, frame =>
    match frame.commitment with
    | some outcome => .ok outcome
    | none => .ok (frame.response.setStatus notFound).finish

/-- Runs the handler on a request, in a fresh frame. -/
def dispatch (app : Application) : Endpoint := fun request =>
  match app.handler with
  | none => pure (.error .noHandler)
  | some handler => do
    let (ending, frame) ← handler.perform app.environment (.initial request)
    return replyOf ending frame

/-- Runs the middlewares, and the handler inside them. -/
def call (app : Application) : Endpoint := Middleware.chain app.middlewares app.dispatch

/-- The application from the middleware at a position on. -/
def callFrom (app : Application) (index : Nat) : Endpoint :=
  if inside : index < app.middlewares.length then
    app.middlewares[index].around (app.callFrom (index + 1))
  else app.dispatch
termination_by app.middlewares.length - index

/-! ## Making an application -/

/-- Gives the application a handler, in place of the one it had. -/
def define (app : Application) (handler : Program) : Application :=
  { app with handler := some handler }

/-- Adds a middleware inside those that are there; there has to be one. -/
def use (app : Application) : Option Middleware → Except Fault Application
  | some middleware => .ok { app with middlewares := app.middlewares ++ [middleware] }
  | none => .error .noMiddleware

/-- Registers middlewares one after the other; where one is refused, the application stays as it is. -/
def register (app : Application) (middlewares : List (Option Middleware)) : Application :=
  middlewares.foldl (fun app middleware => (app.use middleware).toOption.getD app) app

/-- The names that cannot be given to a matcher. -/
def reservedNames : List Bytes :=
  ["on", "get", "post", "put", "delete", "del", "host", "accept", "header", "param", "extension",
    "default", "otherwise", "halt", "run", "session", "settings", "captures"].map ascii

/-- Whether a name cannot be given to a matcher. -/
def isReserved (name : Bytes) : Bool := reservedNames.contains name

/-- Gives a name to a matcher.  A name can be given once, and a reserved one never. -/
def defineMatcher (app : Application) (name : Bytes) (condition : Bytes → Condition) :
    Except Fault Application :=
  if isReserved name || app.names.contains name then .error (.redefinition name)
  else .ok { app with names := app.names.set name condition }

/-- Drops the handler and the middlewares; settings and named matchers stay. -/
def reset (app : Application) : Application := { app with handler := none, middlewares := [] }

end Application

end ClauseRouter
