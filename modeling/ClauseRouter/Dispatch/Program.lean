import ClauseRouter.Dispatch.Matcher

/-!
# Handlers as programs

A handler is a `Program`: a tree of the things that handler code can do.  It is data, so that what
holds of every handler can be proved by induction; where a handler decides something by what it sees,
the tree branches on a `View`.

A clause lists `Condition`s.  They are kept as they were written and prepared only when the clause is
reached; a condition may itself hold a program, whose verdict decides.

The continuation of a clause, and of everything else that gives a program something to work with,
is a function from what it gives.
-/

namespace ClauseRouter

/-- What handler code can see. -/
structure View where
  request : Request
  response : Response
  /-- The live captures, which are those of the clause that was tried last. -/
  captures : Captures
  /-- Whether the outcome is fixed. -/
  isCommitted : Bool
  /-- The outcome, a fresh response as long as there is none. -/
  outcome : Response
  settings : Settings
  /-- The values of the session, if the request has one. -/
  session : Option (Dict Bytes)

/-- What code that recovers is given. -/
inductive Caught where
  | fault (fault : Fault)
  /-- The signal of a commit, with the response that it carries. -/
  | commit (response : Response)

/-- What an attempt catches. -/
inductive Scope where
  /-- Faults, and nothing else. -/
  | faults
  /-- The signal of a commit as well. -/
  | everything
  deriving DecidableEq, Repr

/-- What a probe tells of a matcher that was run outside a clause. -/
structure ProbeReport where
  kind : MatcherKind
  pattern : Bytes
  verdict : Bool
  /-- What the matcher captured from the path. -/
  found : Captures

mutual

/-- What handler code does. -/
inductive Program where
  /-- Comes to its end; in a predicate, with this verdict. -/
  | answer (verdict : Bool)
  /-- One program after the other. -/
  | seq (first second : Program)
  /-- Goes on by what can be seen. -/
  | observe (next : View → Program)
  /-- Changes the response. -/
  | respond (change : Response → Response)
  /-- Changes the request. -/
  | amend (change : Request → Request)
  /-- Changes the values of the session. -/
  | remember (change : Dict Bytes → Dict Bytes)
  /-- Leaves a line as a trace. -/
  | trace (text : Bytes)
  /-- Leaves by a fault. -/
  | raise (fault : Fault)
  /-- Tries a clause: if all conditions pass, runs the body with the captures, and commits the
  response that it leaves. -/
  | on (clause : List Condition) (body : Captures → Program)
  /-- Runs one matcher outside any clause, with captures of its own. -/
  | probe (condition : Condition) (next : ProbeReport → Program)
  /-- Runs a program; if it leaves by something in the scope, recovers. -/
  | attempt (body : Program) (scope : Scope) (recover : Caught → Program)
  /-- Commits a response. -/
  | halt (response : Response)
  /-- Commits what another endpoint answers to the request as it stands. -/
  | delegate (endpoint : Endpoint)

/-- A condition of a clause, as it is written. -/
inductive Condition where
  /-- The path goes on with an instance of a template. -/
  | template (text : Bytes)
  /-- The path goes on with a match of a pattern. -/
  | regex (source : Bytes)
  /-- The path goes on with any segment, which is captured. -/
  | anySegment
  /-- Always or never. -/
  | truth (verdict : Bool)
  /-- The method is the one of a verb. -/
  | verb (verb : Verb)
  /-- The host is this one. -/
  | host (name : Bytes)
  /-- A pattern occurs in the host. -/
  | hostPattern (source : Bytes)
  /-- The last segment of the path ends with a dot and a match of a pattern; what stands before the
  dot is captured. -/
  | extension (source : Bytes)
  /-- Passes in any case; the value of a parameter is captured unless it is empty. -/
  | parameter (key : Bytes)
  /-- There is a header of this name. -/
  | header (name : Bytes)
  /-- The media type is one that the client accepts; the response is then of that type. -/
  | accept (mediaType : Bytes)
  /-- The matcher that the application knows under a name, made for an argument. -/
  | named (name argument : Bytes)
  /-- A predicate that was never given: it fails. -/
  | unset
  /-- A predicate: the verdict of a program. -/
  | check (code : Program)

end

namespace Program

/-- Does nothing. -/
def skip : Program := answer true

/-- Programs one after the other. -/
def all (steps : List Program) : Program := steps.foldr seq skip

/-- Appends a text to the body of the response. -/
def write (text : Bytes) : Program := respond fun r => r.write text

end Program

end ClauseRouter
