/-!
# Byte strings

Everything a router reads or writes — paths, headers, bodies, settings files — is a string of
bytes, and no encoding is ever assumed.  A byte string is a list, so that definitions recurse on it
and proofs induct on it.

* `Bytes` — a byte string.
* `ascii` — the bytes of a text written in the source of this library.
* the classes `isDigit`, `isLetter`, `isWordByte`, `isSpace`, … — **ASCII only**: a byte from `0x80` on
  belongs to none of them.
* `lower` — case folding, on ASCII letters only.
* `Bytes.split`, `Bytes.join` — the parts between separators; `Bytes.collectFrom?` collects the same parts
  by position.

The bytes that have a name in some format are listed in the namespace `Byte`.
-/

namespace ClauseRouter

/-- A byte string: no encoding is assumed, lengths and positions count bytes. -/
abbrev Bytes := List UInt8

/-- Spells a text as bytes, one for each character.  Meant for ASCII texts; of any other character
only the low eight bits of its code stay. -/
def ascii (text : String) : Bytes :=
  text.toList.map fun c => UInt8.ofNat c.toNat

/-! ## Bytes with a name -/

namespace Byte

@[match_pattern] abbrev nul : UInt8 := 0x00
@[match_pattern] abbrev backspace : UInt8 := 0x08
@[match_pattern] abbrev tab : UInt8 := 0x09
@[match_pattern] abbrev newline : UInt8 := 0x0a
@[match_pattern] abbrev verticalTab : UInt8 := 0x0b
@[match_pattern] abbrev formFeed : UInt8 := 0x0c
@[match_pattern] abbrev carriageReturn : UInt8 := 0x0d
@[match_pattern] abbrev space : UInt8 := 0x20
@[match_pattern] abbrev bang : UInt8 := 0x21
@[match_pattern] abbrev quote : UInt8 := 0x22
@[match_pattern] abbrev hash : UInt8 := 0x23
@[match_pattern] abbrev dollar : UInt8 := 0x24
@[match_pattern] abbrev percent : UInt8 := 0x25
@[match_pattern] abbrev ampersand : UInt8 := 0x26
@[match_pattern] abbrev openParen : UInt8 := 0x28
@[match_pattern] abbrev closeParen : UInt8 := 0x29
@[match_pattern] abbrev asterisk : UInt8 := 0x2a
@[match_pattern] abbrev plus : UInt8 := 0x2b
@[match_pattern] abbrev comma : UInt8 := 0x2c
@[match_pattern] abbrev hyphen : UInt8 := 0x2d
@[match_pattern] abbrev dot : UInt8 := 0x2e
@[match_pattern] abbrev slash : UInt8 := 0x2f
@[match_pattern] abbrev zero : UInt8 := 0x30
@[match_pattern] abbrev colon : UInt8 := 0x3a
@[match_pattern] abbrev semicolon : UInt8 := 0x3b
@[match_pattern] abbrev equals : UInt8 := 0x3d
@[match_pattern] abbrev question : UInt8 := 0x3f
@[match_pattern] abbrev atSign : UInt8 := 0x40
@[match_pattern] abbrev openBracket : UInt8 := 0x5b
@[match_pattern] abbrev backslash : UInt8 := 0x5c
@[match_pattern] abbrev closeBracket : UInt8 := 0x5d
@[match_pattern] abbrev caret : UInt8 := 0x5e
@[match_pattern] abbrev underscore : UInt8 := 0x5f
@[match_pattern] abbrev openBrace : UInt8 := 0x7b
@[match_pattern] abbrev bar : UInt8 := 0x7c
@[match_pattern] abbrev closeBrace : UInt8 := 0x7d

end Byte

/-! ## Classes of bytes -/

namespace Bytes

/-- The ten decimal digits. -/
def isDigit (b : UInt8) : Bool := 0x30 ≤ b && b ≤ 0x39

/-- The letters `A` to `Z`. -/
def isUpper (b : UInt8) : Bool := 0x41 ≤ b && b ≤ 0x5a

/-- The letters `a` to `z`. -/
def isLower (b : UInt8) : Bool := 0x61 ≤ b && b ≤ 0x7a

/-- A letter of either case. -/
def isLetter (b : UInt8) : Bool := isUpper b || isLower b

/-- A letter or a digit. -/
def isAlphanumeric (b : UInt8) : Bool := isLetter b || isDigit b

/-- A letter, a digit or the underscore: what `\w` stands for in a pattern. -/
def isWordByte (b : UInt8) : Bool := isAlphanumeric b || b == Byte.underscore

/-- The six bytes of white space: tab, newline, vertical tab, form feed, carriage return, blank. -/
def isSpace (b : UInt8) : Bool := (0x09 ≤ b && b ≤ 0x0d) || b == Byte.space

/-- The two blanks that are trimmed from header values: space and tab. -/
def isBlank (b : UInt8) : Bool := b == Byte.space || b == Byte.tab

/-- A control byte of ASCII. -/
def isControl (b : UInt8) : Bool := b < 0x20 || b == 0x7f

/-- A byte of ASCII that prints a mark. -/
def isGraphic (b : UInt8) : Bool := 0x21 ≤ b && b ≤ 0x7e

/-- A byte of ASCII that prints a mark or a blank. -/
def isPrintable (b : UInt8) : Bool := 0x20 ≤ b && b ≤ 0x7e

/-- A printed mark that is neither letter nor digit. -/
def isPunctuation (b : UInt8) : Bool := isGraphic b && !isAlphanumeric b

/-- The number that a hexadecimal digit of either case stands for. -/
def hexValue? (b : UInt8) : Option Nat :=
  if isDigit b then some (b.toNat - 0x30)
  else if 0x61 ≤ b && b ≤ 0x66 then some (b.toNat - 0x61 + 10)
  else if 0x41 ≤ b && b ≤ 0x46 then some (b.toNat - 0x41 + 10)
  else none

/-! ## Case and blanks -/

/-- The lower case of a letter; any other byte is left alone. -/
def lowerByte (b : UInt8) : UInt8 := if isUpper b then b + 0x20 else b

/-- A byte string with its ASCII letters in lower case. -/
def lower (s : Bytes) : Bytes := s.map lowerByte

/-- Drops the spaces and tabs in front. -/
def trimLeft (s : Bytes) : Bytes := s.dropWhile isBlank

/-- Drops the spaces and tabs at the end. -/
def trimRight (s : Bytes) : Bytes := (s.reverse.dropWhile isBlank).reverse

/-- Drops the spaces and tabs at both ends. -/
def trim (s : Bytes) : Bytes := trimRight (trimLeft s)

/-- A word in capitals: one or more letters `A` to `Z` and nothing else, as method names are. -/
def isCapitalWord (s : Bytes) : Bool := !s.isEmpty && s.all isUpper

/-- What stands before the first NUL byte: as much as a terminated text can tell. -/
def beforeNul (s : Bytes) : Bytes := s.takeWhile (· != Byte.nul)

/-! ## Parts and separators -/

/-- The parts of a byte string between the occurrences of a separator.  There is always one part
more than there are separators, so the empty string has one part, the empty one. -/
def split (separator : UInt8) (s : Bytes) : List Bytes := s.splitOn separator

/-- The parts with one separator between each two of them. -/
def join (separator : UInt8) (parts : List Bytes) : Bytes := [separator].intercalate parts

/-- One part more in front. -/
theorem join_cons_cons (separator : UInt8) (part next : Bytes) (parts : List Bytes) :
    join separator (part :: next :: parts) = part ++ separator :: join separator (next :: parts) := by
  simp [join, List.intercalate_cons_cons]

/-- What stands before and after the first occurrence of a separator, if there is one. -/
def cut? (separator : UInt8) (s : Bytes) : Option (Bytes × Bytes) :=
  match s.span (· != separator) with
  | (before, _ :: after) => some (before, after)
  | (_, []) => none

/-! ## Parts by position -/

/-- The position of the first separator that does not stand before a given one. -/
def findFrom? (separator : UInt8) (s : Bytes) (start : Nat) : Option Nat :=
  ((s.drop start).idxOf? separator).map (start + ·)

/-- What stands from a position on.  The end of the text is a position too, and the last one. -/
def from? (s : Bytes) (start : Nat) : Option Bytes :=
  if start ≤ s.length then some (s.drop start) else none

/-- A separator that is found stands inside the text. -/
theorem findFrom?_lt {separator : UInt8} {s : Bytes} {start stop : Nat}
    (found : findFrom? separator s start = some stop) : start ≤ stop ∧ stop < s.length := by
  obtain ⟨i, first, rfl⟩ := Option.map_eq_some_iff.mp found
  obtain ⟨inside, -⟩ := List.idxOf?_eq_some_iff.mp first
  rw [List.length_drop] at inside
  omega

/-- Collects the parts from a position on, behind those that have been collected before. -/
def collectFrom? (separator : UInt8) (s : Bytes) (before : List Bytes) (start : Nat) :
    Option (List Bytes) :=
  match _found : findFrom? separator s start with
  | none => (from? s start).map fun last => before ++ [last]
  | some stop =>
    match from? s start with
    | none => none
    | some rest => collectFrom? separator s (before ++ [rest.take (stop - start)]) (stop + 1)
termination_by s.length - start
decreasing_by
  have inside := findFrom?_lt _found
  omega

end Bytes

end ClauseRouter
