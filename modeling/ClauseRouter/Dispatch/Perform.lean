import ClauseRouter.Dispatch.Program
import ClauseRouter.Dispatch.Vocabulary

/-!
# Performing a program

`Program.perform` runs a program in a frame.  It is a recursion on the program, so every program ends.

The clause is the heart of it.

1. Its conditions are prepared, from left to right; a fault there leaves before anything else.
2. If the outcome is fixed already, the clause only halts with it again.
3. The live captures are cleared and the matchers tried; the first that fails ends the clause.
4. The body gets the captures as they are then, and when it returns its response is finished and
   committed.
5. **However the clause ends, the cursor is put back** to where it was before.

`Condition.prepare` needs to know what named matchers stand for; that and the settings make up the
`Environment`.
-/

namespace ClauseRouter

/-- What a program can ask of the application it belongs to. -/
structure Environment where
  settings : Settings
  /-- The matcher of a name, made for an argument and a request. -/
  named : (name argument : Bytes) → Request → Except Fault Matcher

/-- What handler code can see of a frame in a host. -/
def Frame.view (frame : Frame) (settings : Settings) (host : Host) : View where
  request := frame.request
  response := frame.response
  captures := frame.captures
  isCommitted := frame.commitment.isSome
  outcome := frame.outcome
  settings := settings
  session := frame.request.session.bind host.sessionValues?

/-- Changes the values of the session, or leaves by a fault if the request has none. -/
def Frame.remember (frame : Frame) (change : Dict Bytes → Dict Bytes) : Hosted Ending :=
  match frame.request.session with
  | none => pure (.faulted .noSession)
  | some key => do
    Hosted.modify fun host => host.updateSession key change
    return .returned true

/-- Commits what an endpoint answers to the request as it stands. -/
def Frame.delegate (frame : Frame) (endpoint : Endpoint) : Hosted (Ending × Frame) := do
  let frame := frame.note .delegated
  match ← endpoint frame.request with
  | .ok response => return frame.commit response
  | .error fault => return (.faulted fault, frame)

/-- Tries a clause whose matchers are prepared. -/
def Frame.tryClause (frame : Frame) (matchers : List Matcher)
    (body : Captures → Frame → Hosted (Ending × Frame)) : Hosted (Ending × Frame) :=
  match frame.commitment with
  | some outcome => pure (.halted outcome, frame)
  | none => do
    let (ending, after) ← attemptClause frame.openClause
    return (ending, after.restore frame.request.cursor)
where
  /-- The clause without the care for the cursor. -/
  attemptClause (frame : Frame) : Hosted (Ending × Frame) := do
    let (ending, frame) ← Matcher.evaluateAll matchers frame
    match ending with
    | .returned true =>
      let (ending, frame) ← body frame.captures (frame.note (.entered frame.captures))
      match ending with
      | .returned _ => return frame.commit frame.response.finish
      | ending => return (ending, frame)
    | ending => return (ending, frame)

/-- What an ending is to code that recovers from what is in a scope. -/
def Ending.caught? (scope : Scope) : Ending → Option Caught
  | .returned _ => none
  | .faulted fault => some (.fault fault)
  | .halted response => if scope = .everything then some (.commit response) else none

mutual

/-- Runs a program in a frame. -/
def Program.perform (env : Environment) : Program → Frame → Hosted (Ending × Frame)
  | .answer verdict, frame => pure (.returned verdict, frame)
  | .seq first second, frame => do
    let (ending, frame) ← first.perform env frame
    match ending with
    | .returned _ => second.perform env frame
    | ending => return (ending, frame)
  | .observe next, frame => do
    let host ← Hosted.host
    (next (frame.view env.settings host)).perform env (frame.note .observed)
  | .respond change, frame => pure (.returned true, frame.respond change)
  | .amend change, frame => pure (.returned true, frame.amend change)
  | .remember change, frame => do
    let ending ← frame.remember change
    return (ending, frame)
  | .trace text, frame => do
    Hosted.write (.traced text)
    return (.returned true, frame)
  | .raise fault, frame => pure (.faulted fault, frame)
  | .on clause body, frame =>
    match prepareAll env frame.request clause with
    | .error fault => pure (.faulted fault, frame)
    | .ok matchers => frame.tryClause matchers fun captures frame => (body captures).perform env frame
  | .probe condition next, frame =>
    match condition.prepare env frame.request with
    | .error fault => pure (.faulted fault, frame)
    | .ok matcher => do
      let (verdict, frame) ← matcher.evaluate frame
      match verdict.ending with
      | .returned passed =>
        (next ⟨matcher.kind, matcher.pattern, passed, verdict.found⟩).perform env frame
      | ending => return (ending, frame)
  | .attempt body scope recover, frame => do
    let (ending, frame) ← body.perform env frame
    match ending.caught? scope with
    | some caught => (recover caught).perform env frame
    | none => return (ending, frame)
  | .halt response, frame => pure (frame.commit response)
  | .delegate endpoint, frame => frame.delegate endpoint

/-- Prepares a condition for a request. -/
def Condition.prepare (env : Environment) (request : Request) : Condition → Except Fault Matcher
  | .template text => Matcher.template? text
  | .regex source => Matcher.regex? source
  | .anySegment => .ok Matcher.anySegment
  | .truth verdict => .ok (Matcher.known verdict)
  | .verb verb => .ok (Matcher.verb request verb)
  | .host name => .ok (Matcher.host request name)
  | .hostPattern source => Matcher.hostPattern? request source
  | .extension source => Matcher.extension? source
  | .parameter key => .ok (Matcher.parameter key)
  | .header name => .ok (Matcher.header name)
  | .accept mediaType => .ok (Matcher.accept mediaType)
  | .named name argument => env.named name argument request
  | .unset => .ok Matcher.unset
  | .check code => .ok (Matcher.predicate (code.perform env))

/-- Prepares the conditions of a clause, from left to right. -/
def prepareAll (env : Environment) (request : Request) : List Condition → Except Fault (List Matcher)
  | [] => .ok []
  | condition :: rest => do
    let matcher ← condition.prepare env request
    let matchers ← prepareAll env request rest
    return matcher :: matchers

end

end ClauseRouter
