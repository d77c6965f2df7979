import ClauseRouter.Bytes

/-!
# The path cursor

While a request is routed its path is in two parts: what the matchers have **consumed** so far and
what **remains** for them.  The separator in front of a segment belongs to that segment, so the two
parts always make up the path again.

* `Cursor` — the two parts.
* `Cursor.advance?` — moves bytes from the front of what remains to the end of what is consumed.
* `Consumption` — what a matcher of paths did to a cursor.
-/

namespace ClauseRouter

/-- The texts that matchers captured, in the order of the matchers. -/
abbrev Captures := List Bytes

/-- A path in two parts. -/
structure Cursor where
  /-- What matchers have taken from the path. -/
  consumed : Bytes
  /-- What is left for them. -/
  remaining : Bytes
  deriving DecidableEq, Repr

namespace Cursor

/-- The cursor in front of a path. -/
def atStart (path : Bytes) : Cursor := ⟨[], path⟩

/-- The two parts put together again. -/
def path (c : Cursor) : Bytes := c.consumed ++ c.remaining

/-- Consumes a number of bytes, if that many remain. -/
def advance? (c : Cursor) (count : Nat) : Option Cursor :=
  if count ≤ c.remaining.length then
    some ⟨c.consumed ++ c.remaining.take count, c.remaining.drop count⟩
  else none

/-- Lets something run on a cursor and puts the cursor back afterwards. -/
def guarded {α : Type} (action : Cursor → α × Cursor) (c : Cursor) : α × Cursor :=
  ((action c).1, c)

end Cursor

/-- What a matcher of paths does to a cursor. -/
inductive Consumption where
  /-- The path does not match. -/
  | rejected
  /-- The path matches: the captures, and the cursor behind the match. -/
  | taken (found : Captures) (after : Cursor)
  /-- The pattern matched, but it claims a number of bytes that is larger than the number of those
  that remain. -/
  | overrun (found : Captures) (claimed remaining : Nat)
  deriving DecidableEq, Repr

end ClauseRouter
