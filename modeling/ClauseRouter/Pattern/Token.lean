import ClauseRouter.Pattern.ByteSet
import ClauseRouter.Pattern.CollatingName

/-!
# The tokens of a pattern

A pattern text is cut into tokens by a machine that reads **one byte at a time**: a `Mode` says what
the bytes read so far have begun, `Mode.step` takes one byte, and `Mode.finish` says what the end of
the text leaves.  `Token.scan` runs the machine.  No mode needs to look ahead; a mode such as
`Mode.repeated` waits for the byte that decides, and hands that byte on if it belongs to the next
token.

The numbers of intervals and back-references are held in 32 bits with a sign (`held`), and it is the
numbers so held that count.

A text is refused (`none`) by

* a backslash at the end, `\x` and `\u` without their digits, `\c` without a byte;
* `(?` that does not open `(?:`, `(?=` or `(?!`;
* `{` that does not open a well-formed interval, or one whose upper bound is below the lower;
* inside brackets: an unknown name, `\B`, a back-reference.
-/

namespace ClauseRouter.Pattern

/-- How often the tree before a quantifier is to be matched. -/
inductive Repetition where
  /-- Any number of times. -/
  | star
  /-- At least once. -/
  | plus
  /-- Once or not at all. -/
  | question
  /-- At least `least` times, and `extra` times more (`none`: any number more). -/
  | interval (least : Nat) (extra : Option Nat)
  deriving DecidableEq, Repr

/-- A number in a pattern is held in 32 bits with a sign.  One that does not fit is reduced modulo
`2^32`, so `{4294967298}` asks for two copies, and `{2147483648}` for a negative number of them. -/
def held (value : Nat) : Int := Int.bmod value UInt32.size

namespace Repetition

/-- At least a number of times; a negative number asks for nothing. -/
def atLeast (least : Nat) : Repetition := interval (held least).toNat none

/-- Just a number of times; a negative number asks for nothing. -/
def exactly (count : Nat) : Repetition := interval (held count).toNat (some 0)

/-- Between two numbers of times, unless the upper one is below the lower one.  The number of optional
times is the distance of the two, even if the lower one is negative. -/
def between? (least most : Nat) : Option Repetition :=
  if held least ≤ held most then
    some (interval (held least).toNat (some (held most - held least).toNat))
  else none

end Repetition

/-- What an opening parenthesis opens. -/
inductive GroupKind where
  /-- A group whose text is kept. -/
  | capture
  /-- A group that only binds together. -/
  | plain
  /-- A condition on what follows. -/
  | lookahead (negated : Bool)
  deriving DecidableEq, Repr

/-- A token of a pattern text. -/
inductive Token where
  | one (set : ByteSet)
  | reference (number : Nat)
  | start
  | finish
  | boundary
  | noBoundary
  | bar
  | opening (kind : GroupKind)
  | closing
  | quantifier (repetition : Repetition) (greedy : Bool)
  | bracketOpening (negated : Bool)
  | bracketByte (b : UInt8)
  | bracketCollating (b : UInt8)
  | bracketItem (item : ByteSet.Item)
  | bracketDash
  | bracketClosing
  deriving DecidableEq, Repr

namespace Token

/-- The reference to the group of a number; a negative number is as good as 0, the number of no
group. -/
def referenceTo (number : Nat) : Token := reference (held number).toNat

/-- What a name between two delimiters inside brackets is the name of. -/
inductive NameKind where
  /-- `[:name:]`, a class of bytes. -/
  | charClass
  /-- `[.name.]`, one byte. -/
  | collating
  /-- `[=name=]`, the bytes alike to one. -/
  | equivalence
  deriving DecidableEq, Repr

/-- The byte that stands on either side of a name. -/
def NameKind.delimiter : NameKind → UInt8
  | charClass => Byte.colon
  | collating => Byte.dot
  | equivalence => Byte.equals

/-- The token of a name, if the name is known. -/
def NameKind.token? (name : Bytes) : NameKind → Option Token
  | charClass => (CharClass.named? name).map fun c => .bracketItem (.inside c)
  | collating => (CollatingName.byte? name).map .bracketCollating
  | equivalence => (CollatingName.byte? name).map fun b => .bracketItem (.alike b)

/-- What the bytes read so far have begun.  Where a mode can stand inside brackets as well as
outside, `inside` tells which. -/
inductive Mode where
  | plain
  /-- After a backslash. -/
  | escape (inside : Bool)
  /-- After `\c`: the next byte stands for itself. -/
  | control (inside : Bool)
  /-- Hexadecimal digits, `left` of which are to come. -/
  | hex (inside : Bool) (left value : Nat)
  /-- The digits of a back-reference. -/
  | reference (number : Nat)
  /-- After `(`. -/
  | paren
  /-- After `(?`. -/
  | question
  /-- After a quantifier, which a question mark would make reluctant. -/
  | repeated (repetition : Repetition)
  /-- After `{`. -/
  | brace
  /-- After `{` and digits. -/
  | least (value : Nat)
  /-- After `{`, digits and a comma. -/
  | comma (least : Nat)
  /-- After `{`, digits, a comma and digits. -/
  | most (least value : Nat)
  /-- After `[`, which a caret would negate. -/
  | bracketStart
  | bracket
  /-- After `[` inside brackets. -/
  | innerBracket
  /-- Inside a name. -/
  | name (kind : NameKind) (soFar : Bytes)
  /-- After the delimiter that ends a name. -/
  | nameEnd (kind : NameKind) (soFar : Bytes)
  deriving DecidableEq, Repr

namespace Mode

/-- The bytes written with a backslash and a letter, wherever they stand. -/
def escapedByte? (b : UInt8) : Option UInt8 :=
  if b = Byte.zero then some Byte.nul
  else if b = 0x66 then some Byte.formFeed
  else if b = 0x6e then some Byte.newline
  else if b = 0x72 then some Byte.carriageReturn
  else if b = 0x74 then some Byte.tab
  else if b = 0x76 then some Byte.verticalTab
  else none

/-- The classes written with a backslash and a letter; a capital stands for what is outside. -/
def escapedClass? (b : UInt8) : Option (CharClass × Bool) :=
  if b = 0x64 then some (.digit, true)
  else if b = 0x44 then some (.digit, false)
  else if b = 0x73 then some (.space, true)
  else if b = 0x53 then some (.space, false)
  else if b = 0x77 then some (.word, true)
  else if b = 0x57 then some (.word, false)
  else none

/-- The number of digits that `\x` and `\u` ask for. -/
def hexDigits? (b : UInt8) : Option Nat :=
  if b = 0x78 then some 2 else if b = 0x75 then some 4 else none

/-- The token of a byte that stands for itself. -/
def literal (inside : Bool) (b : UInt8) : Token :=
  if inside then .bracketByte b else .one (.single b)

/-- The mode to go on with when an escape is over. -/
def resume (inside : Bool) : Mode := if inside then .bracket else .plain

/-- A byte outside brackets, where nothing has been begun. -/
def plainStep (b : UInt8) : List Token × Mode :=
  match b with
  | Byte.backslash => ([], .escape false)
  | Byte.openParen => ([], .paren)
  | Byte.closeParen => ([.closing], .plain)
  | Byte.openBracket => ([], .bracketStart)
  | Byte.openBrace => ([], .brace)
  | Byte.caret => ([.start], .plain)
  | Byte.dollar => ([.finish], .plain)
  | Byte.dot => ([.one .dot], .plain)
  | Byte.bar => ([.bar], .plain)
  | Byte.asterisk => ([], .repeated .star)
  | Byte.plus => ([], .repeated .plus)
  | Byte.question => ([], .repeated .question)
  | b => ([.one (.single b)], .plain)

/-- A byte inside brackets, where nothing has been begun. -/
def bracketStep (b : UInt8) : List Token × Mode :=
  match b with
  | Byte.hyphen => ([.bracketDash], .bracket)
  | Byte.openBracket => ([], .innerBracket)
  | Byte.closeBracket => ([.bracketClosing], .plain)
  | Byte.backslash => ([], .escape true)
  | b => ([.bracketByte b], .bracket)

/-- Puts a finished token before what a step gives. -/
def emit (token : Token) (after : List Token × Mode) : List Token × Mode :=
  (token :: after.1, after.2)

/-- The byte after a backslash. -/
def escapeStep (inside : Bool) (b : UInt8) : Option (List Token × Mode) :=
  match escapedByte? b, escapedClass? b, hexDigits? b with
  | some byte, _, _ => some ([literal inside byte], resume inside)
  | none, some (c, member), _ =>
    some ([match inside, member with
      | true, true => .bracketItem (.inside c)
      | true, false => .bracketItem (.outside c)
      | false, true => .one (.ofClass c)
      | false, false => .one (.offClass c)], resume inside)
  | none, none, some digits => some ([], .hex inside digits 0)
  | none, none, none =>
    if b = 0x63 then some ([], .control inside)
    else if b = 0x62 then
      some ([if inside then .bracketByte Byte.backspace else .boundary], resume inside)
    else if b = 0x42 then
      if inside then none else some ([.noBoundary], .plain)
    else if Bytes.isDigit b then
      if inside then none else some ([], .reference (b.toNat - Byte.zero.toNat))
    else some ([literal inside b], resume inside)

/-- Takes one byte: the tokens that it completes and the mode to go on with, or nothing if the byte
cannot stand here. -/
def step (mode : Mode) (b : UInt8) : Option (List Token × Mode) :=
  match mode with
  | .plain => some (plainStep b)
  | .escape inside => escapeStep inside b
  | .control inside => some ([literal inside b], resume inside)
  | .hex inside left value => do
    let digit ← Bytes.hexValue? b
    let value := 16 * value + digit
    if left ≤ 1 then some ([literal inside (UInt8.ofNat value)], resume inside)
    else some ([], .hex inside (left - 1) value)
  | .reference number =>
    if Bytes.isDigit b then some ([], .reference (10 * number + (b.toNat - Byte.zero.toNat)))
    else some (emit (.referenceTo number) (plainStep b))
  | .paren =>
    if b = Byte.question then some ([], .question)
    else some (emit (.opening .capture) (plainStep b))
  | .question =>
    if b = Byte.colon then some ([.opening .plain], .plain)
    else if b = Byte.equals then some ([.opening (.lookahead false)], .plain)
    else if b = Byte.bang then some ([.opening (.lookahead true)], .plain)
    else none
  | .repeated repetition =>
    if b = Byte.question then some ([.quantifier repetition false], .plain)
    else some (emit (.quantifier repetition true) (plainStep b))
  | .brace =>
    if Bytes.isDigit b then some ([], .least (b.toNat - Byte.zero.toNat)) else none
  | .least value =>
    if Bytes.isDigit b then some ([], .least (10 * value + (b.toNat - Byte.zero.toNat)))
    else if b = Byte.comma then some ([], .comma value)
    else if b = Byte.closeBrace then some ([], .repeated (.exactly value))
    else none
  | .comma lower =>
    if Bytes.isDigit b then some ([], .most lower (b.toNat - Byte.zero.toNat))
    else if b = Byte.closeBrace then some ([], .repeated (.atLeast lower))
    else none
  | .most lower value =>
    if Bytes.isDigit b then some ([], .most lower (10 * value + (b.toNat - Byte.zero.toNat)))
    else if b = Byte.closeBrace then
      (Repetition.between? lower value).map fun repetition => ([], .repeated repetition)
    else none
  | .bracketStart =>
    if b = Byte.caret then some ([.bracketOpening true], .bracket)
    else some (emit (.bracketOpening false) (bracketStep b))
  | .bracket => some (bracketStep b)
  | .innerBracket =>
    if b = Byte.colon then some ([], .name .charClass [])
    else if b = Byte.dot then some ([], .name .collating [])
    else if b = Byte.equals then some ([], .name .equivalence [])
    else some (emit (.bracketByte Byte.openBracket) (bracketStep b))
  | .name kind soFar =>
    if b = kind.delimiter then some ([], .nameEnd kind soFar)
    else some ([], .name kind (soFar ++ [b]))
  | .nameEnd kind soFar =>
    if b = Byte.closeBracket then (kind.token? soFar).map fun token => ([token], .bracket)
    else none

/-- The tokens that the end of the text completes, or nothing if it comes too early. -/
def finish : Mode → Option (List Token)
  | .plain => some []
  | .reference number => some [.referenceTo number]
  | .repeated repetition => some [.quantifier repetition true]
  | _ => none

end Mode

/-- The tokens of a text, begun in a given mode. -/
def scanFrom : Mode → Bytes → Option (List Token)
  | mode, [] => mode.finish
  | mode, b :: rest => do
    let (tokens, mode) ← mode.step b
    let more ← scanFrom mode rest
    return tokens ++ more

/-- The tokens of a pattern text, or nothing if the text is malformed. -/
def scan (text : Bytes) : Option (List Token) := scanFrom .plain text

end Token

end ClauseRouter.Pattern
