import ClauseRouter.Pattern.Parser
import ClauseRouter.Pattern.Match

/-!
# Patterns

A `Pattern` is a compiled regular expression over bytes.

* `Pattern.compile?` — the pattern of a text, or nothing if the text is malformed.
* `Pattern.search?` — the leftmost place of a subject where the pattern matches, told by the texts of
  its groups.
* `Pattern.occursIn` — whether there is such a place.
-/

namespace ClauseRouter

/-- A compiled regular expression. -/
structure Pattern where
  /-- The tree. -/
  node : Pattern.Node
  /-- The number of groups that keep their text, and so of slots. -/
  groups : Nat
  deriving DecidableEq, Repr

namespace Pattern

/-- The pattern of a text, or nothing if the text is malformed. -/
def compile? (text : Bytes) : Option Pattern := do
  let tokens ← Token.scan text
  let parser ← Parser.initial.run tokens
  let node ← parser.finish?
  return ⟨node, parser.groups⟩

/-- Matches a pattern at one place of a subject, with empty slots. -/
def matchAt (pattern : Pattern) (attempt : Attempt) (before : Option UInt8) (rest : Bytes) : Answer :=
  pattern.node.run attempt 0 (fun s => .matched s.slots)
    ⟨attempt.origin, before, rest, List.replicate pattern.groups none, []⟩

/-- The first match at a given place or behind it. -/
def searchFrom (pattern : Pattern) (attempt : Attempt) (before : Option UInt8) : Bytes → Option Slots
  | [] =>
    match pattern.matchAt attempt before [] with
    | .matched slots => some slots
    | .failed _ => none
  | b :: rest =>
    match pattern.matchAt attempt before (b :: rest) with
    | .matched slots => some slots
    | .failed _ =>
      pattern.searchFrom { attempt with origin := attempt.origin + 1, continued := true } (some b) rest

/-- The texts of the groups at the leftmost match, if there is one.  With `openEnd` the subject is
known to go on, so that it has no end to match. -/
def search? (pattern : Pattern) (subject : Bytes) (openEnd : Bool) : Option Slots :=
  pattern.searchFrom ⟨0, false, openEnd⟩ none subject

/-- Whether a pattern matches somewhere in a subject. -/
def occursIn (pattern : Pattern) (subject : Bytes) : Bool := (pattern.search? subject false).isSome

end Pattern

end ClauseRouter
