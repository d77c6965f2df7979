import ClauseRouter.Bytes

/-!
# Sets of bytes in a pattern

Where a pattern asks for one byte it describes a set of them: a single byte, `.`, a class such as
`\d`, or a bracket expression such as `[a-z_]`.  All of these are a `ByteSet`, a list of items that
may be negated as a whole.

* `CharClass` — the named classes, with `CharClass.named?` for the names used inside brackets.
* `ByteSet.Item` — what a bracket expression lists.
* `ByteSet.contains` — the meaning of a set.

Ranges compare bytes **as signed numbers**: the bytes from `0x80` on stand below all of ASCII, and a
range such as `[\x80-z]` is not empty.
-/

namespace ClauseRouter.Pattern

/-! ## Named classes -/

/-- The classes of bytes that a pattern can name. -/
inductive CharClass where
  | alphanumeric
  | letter
  | blank
  | control
  | digit
  | graphic
  | lower
  | printable
  | punctuation
  | space
  | upper
  | hexDigit
  | word
  deriving DecidableEq, Repr

namespace CharClass

/-- Whether a byte belongs to a class. -/
def contains : CharClass → UInt8 → Bool
  | alphanumeric => Bytes.isAlphanumeric
  | letter => Bytes.isLetter
  | blank => Bytes.isBlank
  | control => Bytes.isControl
  | digit => Bytes.isDigit
  | graphic => Bytes.isGraphic
  | lower => Bytes.isLower
  | printable => Bytes.isPrintable
  | punctuation => Bytes.isPunctuation
  | space => Bytes.isSpace
  | upper => Bytes.isUpper
  | hexDigit => fun b => (Bytes.hexValue? b).isSome
  | word => Bytes.isWordByte

/-- The names that stand for a class between `[:` and `:]`. -/
def names : List (Bytes × CharClass) :=
  [(ascii "d", digit), (ascii "w", word), (ascii "s", space),
   (ascii "alnum", alphanumeric), (ascii "alpha", letter), (ascii "blank", blank),
   (ascii "cntrl", control), (ascii "digit", digit), (ascii "graph", graphic),
   (ascii "lower", lower), (ascii "print", printable), (ascii "punct", punctuation),
   (ascii "space", space), (ascii "upper", upper), (ascii "xdigit", hexDigit)]

/-- The class of a name; the case of its letters does not matter. -/
def named? (name : Bytes) : Option CharClass := names.lookup (Bytes.lower name)

end CharClass

/-! ## Items and sets -/

namespace ByteSet

/-- One item of a bracket expression. -/
inductive Item where
  /-- This very byte. -/
  | byte (b : UInt8)
  /-- The bytes between two bounds, in signed order. -/
  | range (low high : UInt8)
  /-- The bytes of a class. -/
  | inside (c : CharClass)
  /-- The bytes that are not in a class. -/
  | outside (c : CharClass)
  /-- The bytes with the same lower case as this one. -/
  | alike (b : UInt8)
  deriving DecidableEq, Repr

/-- The rank of a byte read as a signed number: `0x80` comes first and `0x7f` last. -/
def signedRank (b : UInt8) : UInt8 := b + 0x80

/-- Whether a byte is covered by an item. -/
def Item.contains : Item → UInt8 → Bool
  | .byte b, x => x == b
  | .range low high, x => signedRank low ≤ signedRank x && signedRank x ≤ signedRank high
  | .inside c, x => c.contains x
  | .outside c, x => !c.contains x
  | .alike b, x => Bytes.lowerByte x == Bytes.lowerByte b

end ByteSet

/-- A set of bytes: those that some item covers or, if negated, those that none does. -/
structure ByteSet where
  /-- Whether the items list what is left out. -/
  negated : Bool
  /-- The items of the set. -/
  items : List ByteSet.Item
  deriving DecidableEq, Repr

namespace ByteSet

/-- Whether a byte is in the set. -/
def contains (s : ByteSet) (x : UInt8) : Bool := (s.items.any fun item => item.contains x) != s.negated

/-- The set of one byte. -/
def single (b : UInt8) : ByteSet := ⟨false, [.byte b]⟩

/-- The bytes of a class. -/
def ofClass (c : CharClass) : ByteSet := ⟨false, [.inside c]⟩

/-- The bytes outside a class. -/
def offClass (c : CharClass) : ByteSet := ⟨true, [.inside c]⟩

/-- What the dot stands for: any byte that does not end a line. -/
def dot : ByteSet := ⟨true, [.byte Byte.newline, .byte Byte.carriageReturn]⟩

end ByteSet

end ClauseRouter.Pattern
