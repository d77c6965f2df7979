import ClauseRouter.Dispatch.Frame
import ClauseRouter.Path.Window

/-!
# Prepared matchers

The matchers of a clause are prepared before the clause is tried: patterns are compiled, methods and
hosts compared.  What is left to do when the clause is tried is a `MatcherTest`.

* `Matcher.evaluate` — runs a matcher in a frame.  A matcher of paths moves the cursor and hands over
  what it captured; a predicate works on the frame itself.
* `Matcher.evaluateAll` — the matchers of a clause from left to right, up to the first that fails.
-/

namespace ClauseRouter

/-- What a matcher was made of. -/
inductive MatcherKind where
  | template
  | regex
  | anySegment
  | predicate
  | boolean
  deriving DecidableEq, Repr

/-- What a prepared matcher does when it is tried. -/
inductive MatcherTest where
  /-- It matches the path. -/
  | path (test : PathTest)
  /-- It says what has been found out before. -/
  | known (verdict : Bool)
  /-- It runs code on the frame. -/
  | code (run : Frame → Hosted (Ending × Frame))

/-- A prepared matcher. -/
structure Matcher where
  kind : MatcherKind
  /-- The pattern text, empty for what has none. -/
  pattern : Bytes
  test : MatcherTest

/-- What comes of a matcher: how it ends, and what it captured from the path. -/
structure Verdict where
  ending : Ending
  found : Captures

namespace Matcher

/-- A matcher that says what has been found out before. -/
def known (verdict : Bool) : Matcher := ⟨.boolean, [], .known verdict⟩

/-- A matcher that runs code on the frame. -/
def predicate (run : Frame → Hosted (Ending × Frame)) : Matcher := ⟨.predicate, [], .code run⟩

/-- Runs a matcher in a frame. -/
def evaluate (matcher : Matcher) (frame : Frame) : Hosted (Verdict × Frame) :=
  match matcher.test with
  | .path test =>
    match test.run frame.request.cursor with
    | .rejected => pure (⟨.returned false, []⟩, frame)
    | .taken found after => pure (⟨.returned true, found⟩, frame.moveTo after)
    | .overrun found claimed remaining =>
      pure (⟨.faulted (.overrun claimed remaining), found⟩, frame)
  | .known verdict => pure (⟨.returned verdict, []⟩, frame)
  | .code run => do
    let (ending, frame) ← run frame
    return (⟨ending, []⟩, frame)

/-- Runs matchers from left to right, up to the first that does not pass, and gathers what they
capture in the live captures. -/
def evaluateAll : List Matcher → Frame → Hosted (Ending × Frame)
  | [], frame => pure (.returned true, frame)
  | matcher :: rest, frame => do
    let (verdict, frame) ← matcher.evaluate (frame.note .tried)
    let frame := frame.capture verdict.found
    match verdict.ending with
    | .returned true => evaluateAll rest (frame.note .passed)
    | ending => return (ending, frame)

end Matcher

end ClauseRouter
