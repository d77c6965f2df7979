import ClauseRouter.Pattern.Node

/-!
# Matching

A pattern is matched by backtracking: alternatives are tried in order, a greedy loop tries another
pass before it lets go and a reluctant one after, and the first way that leads to the end counts.

`Node.run` is that search, written with **continuations**: `node.run attempt base rest s` matches `node`
at the place `s` and hands every place where it may end to `rest`, in the order of preference, until
`rest` accepts one.

Three rules decide the corner cases.

* **A loop may begin a pass only twice at one place.**  That ends loops whose passes consume nothing,
  and leaves one empty pass for the text of a group (`(a*)*`).  `State.entered` lists the loops that
  have begun a pass since the last byte was consumed.
* **A group keeps its text** until it is matched again; a new pass of a loop around it does not reset
  it.  When the search goes back over the end of a group, the slot gets its old text back.
* **A lookahead is a search of its own.**  It counts its loops afresh, takes the place where it stands
  for the start of the subject unless the subject goes on before it, and what its groups held when it
  matched stays in the slots, even if the search goes back over it.  That is why a failed search
  hands its slots on (`Answer.failed`).
-/

namespace ClauseRouter.Pattern

/-- The texts that the groups hold, slot by slot. -/
abbrev Slots := List (Option Bytes)

/-- A place in the subject, with what the search has found on the way there. -/
structure State where
  /-- The number of bytes before this place. -/
  position : Nat
  /-- The byte before this place. -/
  before : Option UInt8
  /-- The bytes from this place on. -/
  rest : Bytes
  /-- The texts of the groups. -/
  slots : Slots
  /-- The loops that began a pass at this place, each as often as it did. -/
  entered : List Nat
  deriving DecidableEq, Repr

/-- How one search stands to the subject. -/
structure Attempt where
  /-- The place where the search began. -/
  origin : Nat
  /-- Whether the subject goes on before the place where the search began. -/
  continued : Bool
  /-- Whether the subject goes on after its last byte, so that it has no end here. -/
  openEnd : Bool
  deriving DecidableEq, Repr

/-- The outcome of a search.  Both ways it tells what the slots hold. -/
inductive Answer where
  | matched (slots : Slots)
  | failed (slots : Slots)
  deriving DecidableEq, Repr

namespace State

/-- The state behind the next byte. -/
def step (s : State) (b : UInt8) : State :=
  { s with position := s.position + 1, before := some b, rest := s.rest.tail, entered := [] }

/-- The state behind a text that comes next. -/
def advance (s : State) (text : Bytes) : State := text.foldl step s

/-- Whether a loop may begin a pass here: it has not done so twice. -/
def mayEnter (s : State) (loop : Nat) : Bool := s.entered.count loop < 2

/-- Notes that a loop begins a pass here. -/
def enter (s : State) (loop : Nat) : State := { s with entered := loop :: s.entered }

/-- The text that a slot holds. -/
def slot? (s : State) (slot : Nat) : Option Bytes := (s.slots[slot]?).join

/-- The text between an earlier place and this one. -/
def textSince (s start : State) : Bytes := start.rest.take (s.position - start.position)

/-- Whether the byte before this place, if the search may look at it, is a word byte. -/
def wordBefore (s : State) (attempt : Attempt) : Bool :=
  (s.position != attempt.origin || attempt.continued) && s.before.any Bytes.isWordByte

/-- Whether the byte after this place is a word byte. -/
def wordAfter (s : State) : Bool := s.rest.head?.any Bytes.isWordByte

end State

/-- Whether a condition holds at a place. -/
def Assertion.holds (attempt : Attempt) (s : State) : Assertion → Bool
  | .start => s.position == attempt.origin && !attempt.continued
  | .finish => s.rest.isEmpty && !attempt.openEnd
  | .boundary => s.wordBefore attempt != s.wordAfter
  | .noBoundary => s.wordBefore attempt == s.wordAfter

/-! ## Ways to go on -/

/-- A way to go on from a place. -/
abbrev Next := State → Answer

namespace Next

/-- Tries one way and, if it fails, the other; what the slots hold then is what the first left. -/
def orElse (first second : Next) : Next := fun s =>
  match first s with
  | .matched slots => .matched slots
  | .failed slots => second { s with slots := slots }

/-- Goes on with the text since `start` in a slot, and takes the text out again on failure. -/
def keeping (next : Next) (slot : Nat) (start : State) : Next := fun s =>
  match next { s with slots := s.slots.set slot (some (s.textSince start)) } with
  | .matched slots => .matched slots
  | .failed slots => .failed (slots.set slot (s.slot? slot))

/-- Begins a pass of a loop if it may, in the order that `greedy` asks for; else lets go. -/
def pass (greedy : Bool) (loop : Nat) (again exit : Next) : Next := fun s =>
  if s.mayEnter loop then
    let again : Next := fun s => again (s.enter loop)
    if greedy then orElse again exit s else orElse exit again s
  else exit s

/-- The passes of a loop.  At every place a loop begins at most two, so `2 * (n + 1)` passes are
enough where `n` bytes are left; `budget` counts them down. -/
def passes (greedy : Bool) (loop : Nat) (body : Next → Next) (exit : Next) : Nat → Next
  | 0 => exit
  | budget + 1 => pass greedy loop (body (passes greedy loop body exit budget)) exit

/-- A tree matched a given number of times, the copies numbered from `first` on. -/
def copies (body : Nat → Next → Next) (exit : Next) (first : Nat) : Nat → Next
  | 0 => exit
  | count + 1 => body first (copies body exit (first + 1) count)

/-- A tree matched at most a given number of times, each copy with a loop number of its own; to let
go of one copy is to let go of all that follow. -/
def optionalCopies (greedy : Bool) (loop : Nat → Nat) (body : Nat → Next → Next) (exit : Next)
    (first : Nat) : Nat → Next
  | 0 => exit
  | count + 1 =>
    pass greedy (loop first)
      (body first (optionalCopies greedy loop body exit (first + 1) count)) exit

end Next

/-! ## Trees -/

namespace Node

/-- Matches a tree from a place on and goes on with `next`.  The loops of the tree are numbered from
`base` on. -/
def run (attempt : Attempt) : Node → (base : Nat) → Next → Next
  | .empty, _, next => next
  | .one set, _, next => fun s =>
    match s.rest with
    | b :: _ => if set.contains b then next (s.step b) else .failed s.slots
    | [] => .failed s.slots
  | .group slot body, base, next => fun s => body.run attempt base (next.keeping slot s) s
  | .seq first second, base, next =>
    first.run attempt base fun s => second.run attempt (base + first.loops) next s
  | .either left right, base, next =>
    Next.orElse (left.run attempt base next)
      fun s => right.run attempt (base + left.loops) next s
  | .loop required greedy body, base, next => fun s =>
    let again := Next.passes greedy base (body.run attempt (base + 1)) next
      (2 * (s.rest.length + 1))
    if required then body.run attempt (base + 1) again s else again s
  | .optional greedy body, base, next =>
    Next.pass greedy base (body.run attempt (base + 1) next) next
  | .interval least extra greedy body, base, next =>
    let bodyLoops := body.loops
    let above := base + least * bodyLoops
    let more : Next :=
      match extra with
      | some count =>
        Next.optionalCopies greedy (fun i => above + i * (bodyLoops + 1))
          (fun i => body.run attempt (above + i * (bodyLoops + 1) + 1)) next 0 count
      | none => fun s =>
        Next.passes greedy above (body.run attempt (above + 1)) next (2 * (s.rest.length + 1)) s
    Next.copies (fun i => body.run attempt (base + i * bodyLoops)) more 0 least
  | .reference slot, _, next => fun s =>
    match s.slot? slot with
    | none => .failed s.slots
    | some text => if text.isPrefixOf s.rest then next (s.advance text) else .failed s.slots
  | .check assertion, _, next => fun s =>
    if assertion.holds attempt s then next s else .failed s.slots
  | .lookahead negated body, base, next => fun s =>
    match body.run { attempt with origin := s.position } base (fun s' => .matched s'.slots)
        { s with entered := [] } with
    | .matched slots => if negated then .failed slots else next { s with slots := slots }
    | .failed _ => if negated then next s else .failed s.slots

end Node

end ClauseRouter.Pattern
