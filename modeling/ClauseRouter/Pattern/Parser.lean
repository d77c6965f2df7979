import ClauseRouter.Pattern.Node
import ClauseRouter.Pattern.Token

/-!
# From tokens to the tree

The tokens of a pattern are folded into a tree, one token at a time.  A `Parser` keeps a `Level` for
every parenthesis that is open, the innermost one apart, and the bracket expression that is being
read, if any.

* `Bracket.step` — the grammar of bracket expressions, where a dash is a range, a byte or an error
  depending on what stands around it.
* `Parser.step` — one token.
* `Parser.finish?` — the tree, once every parenthesis is closed.

**Weights.**  A pattern may be long once its intervals are written out, and a limit keeps that in
hand: `Parser.weightLimit`.  The weight of a tree is the number of steps of the machine that would
match it; the parser adds up the weight of everything it builds, and of the tree under an interval
once more than the copies.
-/

namespace ClauseRouter.Pattern

/-! ## Bracket expressions -/

/-- What the last token of a bracket expression was, as far as a dash after it is concerned. -/
inductive Trail where
  /-- Nothing yet, or a range: a dash stands for itself. -/
  | fresh
  /-- A byte, which a dash would make the lower bound of a range. -/
  | byte (b : UInt8)
  /-- A class, after which a dash can only come last. -/
  | charClass
  /-- A byte and a dash: the upper bound is to come. -/
  | range (low : UInt8)
  /-- A class and a dash. -/
  | classDash
  deriving DecidableEq, Repr

/-- A bracket expression that is being read. -/
structure Bracket where
  /-- Whether a caret came first. -/
  negated : Bool
  /-- The items read so far; a byte of the trail is not among them yet. -/
  items : List ByteSet.Item
  /-- What the last token was. -/
  trail : Trail
  deriving DecidableEq, Repr

namespace Bracket

/-- The items, with the byte of the trail. -/
def settled (bracket : Bracket) : List ByteSet.Item :=
  match bracket.trail with
  | .byte b => bracket.items ++ [.byte b]
  | .range low => bracket.items ++ [.byte low, .byte Byte.hyphen]
  | .classDash => bracket.items ++ [.byte Byte.hyphen]
  | _ => bracket.items

/-- The set of a bracket expression that is over; a dash that came last stands for itself. -/
def close (bracket : Bracket) : ByteSet := ⟨bracket.negated, bracket.settled⟩

/-- A byte comes next. -/
def push (bracket : Bracket) (b : UInt8) : Bracket :=
  { bracket with items := bracket.settled, trail := .byte b }

/-- A range comes next, unless its bounds are in the wrong order. -/
def range? (bracket : Bracket) (low high : UInt8) : Option Bracket :=
  if ByteSet.signedRank low ≤ ByteSet.signedRank high then
    some { bracket with items := bracket.items ++ [.range low high], trail := .fresh }
  else none

/-- Takes one token that does not end the expression. -/
def step (bracket : Bracket) (token : Token) : Option Bracket :=
  match token, bracket.trail with
  -- after a dash that is no byte yet, only the upper bound of a range may follow
  | .bracketByte high, .range low => bracket.range? low high
  | .bracketDash, .range low => bracket.range? low Byte.hyphen
  | _, .range _ => none
  | _, .classDash => none
  | .bracketDash, .fresh => some (bracket.push Byte.hyphen)
  | .bracketDash, .byte b => some { bracket with trail := .range b }
  | .bracketDash, .charClass => some { bracket with trail := .classDash }
  | .bracketByte b, _ => some (bracket.push b)
  | .bracketCollating b, _ => some (bracket.push b)
  | .bracketItem item, _ =>
    some { bracket with items := bracket.settled ++ [item], trail := .charClass }
  | _, _ => none

end Bracket

/-! ## Levels -/

/-- A tree with its weight. -/
structure Piece where
  node : Node
  weight : Nat
  deriving DecidableEq, Repr

namespace Piece

/-- The piece without content. -/
def empty : Piece := ⟨.empty, 0⟩

/-- One piece after another. -/
def append (first second : Piece) : Piece :=
  ⟨.seq first.node second.node, first.weight + second.weight⟩

/-- A piece under a quantifier. -/
def repeated (piece : Piece) (greedy : Bool) : Repetition → Piece
  | .star => ⟨.loop false greedy piece.node, piece.weight + 1⟩
  | .plus => ⟨.loop true greedy piece.node, piece.weight + 1⟩
  | .question => ⟨.optional greedy piece.node, piece.weight + 2⟩
  | .interval least extra =>
    ⟨.interval least extra greedy piece.node,
      1 + least * piece.weight +
        match extra with
        | none => piece.weight + 1
        | some more => 1 + more * (piece.weight + 1)⟩

/-- The weight that a quantifier adds to what has been built: an interval copies its tree, the
others share it. -/
def addedWeight (piece : Piece) (greedy : Bool) : Repetition → Nat
  | .interval least extra => (piece.repeated greedy (.interval least extra)).weight
  | repetition => (piece.repeated greedy repetition).weight - piece.weight

end Piece

/-- What opened a level. -/
inductive Enclosure where
  /-- The pattern as a whole. -/
  | whole
  /-- A group whose text is kept in a slot. -/
  | capture (slot : Nat)
  /-- A group that only binds together. -/
  | plain
  /-- A condition on what follows. -/
  | lookahead (negated : Bool)
  deriving DecidableEq, Repr

/-- What has been read since a parenthesis was opened. -/
structure Level where
  /-- The parenthesis. -/
  enclosure : Enclosure
  /-- The alternatives before the last bar. -/
  alternatives : Option Piece
  /-- The terms since the last bar, the last one excepted if it may still be repeated. -/
  terms : Piece
  /-- A last term that a quantifier could apply to. -/
  last : Option Piece
  deriving DecidableEq, Repr

namespace Level

/-- A level of which nothing has been read. -/
def opened (enclosure : Enclosure) : Level := ⟨enclosure, none, .empty, none⟩

/-- All terms since the last bar. -/
def sequence (level : Level) : Piece :=
  match level.last with
  | none => level.terms
  | some last => level.terms.append last

/-- A term that a quantifier could apply to. -/
def pushAtom (level : Level) (atom : Piece) : Level :=
  { level with terms := level.sequence, last := some atom }

/-- A term that cannot be repeated. -/
def pushAssertion (level : Level) (assertion : Piece) : Level :=
  { level with terms := level.sequence.append assertion, last := none }

/-- The alternatives including the terms since the last bar; the end of every alternative weighs
one. -/
def disjunction (level : Level) : Piece :=
  let last : Piece := { level.sequence with weight := level.sequence.weight + 1 }
  match level.alternatives with
  | none => last
  | some left => ⟨.either left.node last.node, left.weight + last.weight + 2⟩

/-- The weight that `disjunction` adds to what has been built. -/
def disjunctionWeight (level : Level) : Nat := if level.alternatives.isSome then 3 else 1

end Level

/-! ## The parser -/

/-- The state of the parser between two tokens. -/
structure Parser where
  /-- The bracket expression that is being read. -/
  bracket : Option Bracket
  /-- The innermost open parenthesis. -/
  level : Level
  /-- The parentheses around it, from the inside out. -/
  outer : List Level
  /-- How many groups have been opened that keep their text. -/
  groups : Nat
  /-- The weight of everything built so far. -/
  built : Nat
  deriving DecidableEq, Repr

namespace Parser

/-- Before the first token. -/
def initial : Parser := ⟨none, .opened .whole, [], 0, 3⟩

/-- The largest weight of a pattern. -/
def weightLimit : Nat := 100000

/-- Adds a term that a quantifier could apply to. -/
def addAtom (parser : Parser) (atom : Piece) (weight : Nat) : Parser :=
  { parser with level := parser.level.pushAtom atom, built := parser.built + weight }

/-- Adds a term that cannot be repeated. -/
def addAssertion (parser : Parser) (assertion : Piece) (weight : Nat) : Parser :=
  { parser with level := parser.level.pushAssertion assertion, built := parser.built + weight }

/-- Opens a parenthesis. -/
def openLevel (parser : Parser) (enclosure : Enclosure) : Parser :=
  { parser with level := .opened enclosure, outer := parser.level :: parser.outer }

/-- The slots of the groups that are still open. -/
def openSlots (parser : Parser) : List Nat :=
  (parser.level :: parser.outer).filterMap fun level =>
    match level.enclosure with
    | .capture slot => some slot
    | _ => none

/-- The slot that a back-reference means, if it is that of a group which is closed already. -/
def slotOf? (parser : Parser) (number : Nat) : Option Nat :=
  if 1 ≤ number && number ≤ parser.groups && !parser.openSlots.contains (number - 1) then
    some (number - 1)
  else none

/-- Opens a parenthesis; a group that keeps its text takes the next slot. -/
def openGroup (parser : Parser) : GroupKind → Parser
  | .capture => { parser.openLevel (.capture parser.groups) with groups := parser.groups + 1 }
  | .plain => parser.openLevel .plain
  | .lookahead negated => parser.openLevel (.lookahead negated)

/-- Closes the innermost parenthesis, if one is open. -/
def close? (parser : Parser) : Option Parser :=
  match parser.outer with
  | [] => none
  | below :: outer =>
    let body := parser.level.disjunction
    let around : Parser :=
      { parser with
        level := below, outer := outer, built := parser.built + parser.level.disjunctionWeight }
    match parser.level.enclosure with
    | .whole => none
    | .capture slot => some (around.addAtom ⟨.group slot body.node, body.weight + 2⟩ 2)
    | .plain => some (around.addAtom ⟨body.node, body.weight + 1⟩ 1)
    | .lookahead negated =>
      some (around.addAssertion ⟨.lookahead negated body.node, body.weight + 2⟩ 2)

/-- Applies a quantifier to the last term, if there is one that can be repeated. -/
def quantify? (parser : Parser) (repetition : Repetition) (greedy : Bool) : Option Parser :=
  parser.level.last.map fun piece =>
    { parser with
      level := { parser.level with last := some (piece.repeated greedy repetition) }
      built := parser.built + piece.addedWeight greedy repetition }

/-- Begins the next alternative. -/
def nextAlternative (parser : Parser) : Parser :=
  { parser with
    level :=
      { parser.level with
        alternatives := some parser.level.disjunction, terms := .empty, last := none }
    built := parser.built + parser.level.disjunctionWeight }

/-- A condition on a place, as a term. -/
def addCheck (parser : Parser) (assertion : Assertion) : Parser :=
  parser.addAssertion ⟨.check assertion, 1⟩ 1

/-- Takes one token outside brackets. -/
def stepOutside (parser : Parser) : Token → Option Parser
  | .one set => some (parser.addAtom ⟨.one set, 1⟩ 1)
  | .reference number =>
    (parser.slotOf? number).map fun slot => parser.addAtom ⟨.reference slot, 1⟩ 1
  | .start => some (parser.addCheck .start)
  | .finish => some (parser.addCheck .finish)
  | .boundary => some (parser.addCheck .boundary)
  | .noBoundary => some (parser.addCheck .noBoundary)
  | .bar => some parser.nextAlternative
  | .opening kind => some (parser.openGroup kind)
  | .closing => parser.close?
  | .quantifier repetition greedy => parser.quantify? repetition greedy
  | .bracketOpening negated => some { parser with bracket := some ⟨negated, [], .fresh⟩ }
  | _ => none

/-- Takes one token; nothing, if it cannot stand here. -/
def step (parser : Parser) (token : Token) : Option Parser :=
  match parser.bracket, token with
  | none, token => parser.stepOutside token
  | some bracket, .bracketClosing =>
    some ({ parser with bracket := none }.addAtom ⟨.one bracket.close, 1⟩ 1)
  | some bracket, token =>
    (bracket.step token).map fun bracket => { parser with bracket := some bracket }

/-- The tree of the pattern, if every parenthesis and bracket is closed and the weight is within
the limit. -/
def finish? (parser : Parser) : Option Node :=
  match parser.bracket, parser.outer with
  | none, [] =>
    if parser.built + parser.level.disjunctionWeight ≤ weightLimit then
      some parser.level.disjunction.node
    else none
  | _, _ => none

/-- The state after a list of tokens. -/
def run (parser : Parser) (tokens : List Token) : Option Parser := tokens.foldlM step parser

end Parser

end ClauseRouter.Pattern
