import ClauseRouter.Pattern.ByteSet

/-!
# The tree of a pattern

A compiled pattern is a `Node`.  Groups and back-references carry the number of the *slot* in which
the text of the group is kept; slots count from 0 in the order of the opening parentheses.

`Node.loops` counts the loops of a tree **written out**, where an interval such as `a{2,5}` stands
for as many copies as it allows.  The matcher numbers loops by their place in the written-out tree,
so that two copies of one loop are told apart.
-/

namespace ClauseRouter.Pattern

/-- A condition on a place between two bytes. -/
inductive Assertion where
  /-- The start of the subject. -/
  | start
  /-- The end of the subject. -/
  | finish
  /-- A place where a word begins or ends. -/
  | boundary
  /-- A place where no word begins or ends. -/
  | noBoundary
  deriving DecidableEq, Repr

/-- The tree of a pattern. -/
inductive Node where
  /-- Matches at once. -/
  | empty
  /-- One byte of a set. -/
  | one (set : ByteSet)
  /-- A group whose text is kept in a slot. -/
  | group (slot : Nat) (body : Node)
  /-- One tree after the other. -/
  | seq (first second : Node)
  /-- The left tree or, failing that, the right one. -/
  | either (left right : Node)
  /-- Any number of passes; if `required`, the first one is not optional. -/
  | loop (required greedy : Bool) (body : Node)
  /-- One pass or none. -/
  | optional (greedy : Bool) (body : Node)
  /-- At least `least` passes, and `extra` more (`none`: any number more). -/
  | interval (least : Nat) (extra : Option Nat) (greedy : Bool) (body : Node)
  /-- The text that a slot holds, once more. -/
  | reference (slot : Nat)
  /-- A condition on the place. -/
  | check (assertion : Assertion)
  /-- A tree that matches from here on or, if `negated`, does not; nothing is consumed. -/
  | lookahead (negated : Bool) (body : Node)
  deriving DecidableEq, Repr

namespace Node

/-- The number of loops in the written-out tree. -/
def loops : Node → Nat
  | empty => 0
  | one _ => 0
  | group _ body => body.loops
  | seq first second => first.loops + second.loops
  | either left right => left.loops + right.loops
  | loop _ _ body => body.loops + 1
  | optional _ body => body.loops + 1
  | interval least extra _ body =>
    least * body.loops + (extra.getD 1) * (body.loops + 1)
  | reference _ => 0
  | check _ => 0
  | lookahead _ body => body.loops

end Node

end ClauseRouter.Pattern
