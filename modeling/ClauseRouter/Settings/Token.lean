import ClauseRouter.Bytes.Decimal

/-!
# The tokens of a settings text

A settings text is cut into words, numbers, quoted strings and semicolons; white space and comments
only separate them.

* `Reader` — a place in a text: what is left, how many bytes are behind, line and column.
* `Reader.skipSpace`, `Reader.takeWord`, `Reader.takeString`, `Reader.next` — the scanners.  Each of
  them can be used on its own.
* `Reader.scan` — all tokens up to the end, or up to the first bad one.
* `Tokenizer.tokenise` — takes the tokens of one text after the other, keeping line and column by hand.

A comment starts with `#` or `//` and goes on to the end of its line.  A string stays on one line; in
it, a backslash before a quote makes the quote a part of the string, and any other backslash stands
for itself.
-/

namespace ClauseRouter

/-- A place in a text, by line and column; both count from one, and columns count bytes. -/
structure Place where
  line : Nat := 1
  column : Nat := 1
  deriving DecidableEq, Repr

namespace Place

/-- The place behind a byte of the same line. -/
def right (p : Place) (count : Nat) : Place := { p with column := p.column + count }

/-- The start of the next line. -/
def nextLine (p : Place) : Place := ⟨p.line + 1, 1⟩

/-- The place behind a byte: a newline starts a line. -/
def past (p : Place) (b : UInt8) : Place := if b == Byte.newline then p.nextLine else p.right 1

/-- How a place is told in a message. -/
def describe (p : Place) : Bytes :=
  ascii "line " ++ Decimal.natural p.line ++ ascii ", col " ++ Decimal.natural p.column

end Place

namespace Settings

/-- What a token is. -/
inductive TokenKind where
  /-- The end of the text. -/
  | finish
  | comment
  | semicolon
  | word
  /-- A word of digits only. -/
  | number
  | string
  /-- A byte that no token starts with, or a string without its closing quote. -/
  | invalid
  deriving DecidableEq, Repr

/-- A token, and where it starts. -/
structure Token where
  kind : TokenKind
  text : Bytes
  place : Place
  deriving DecidableEq, Repr

/-- The bytes of words: letters, digits and `: / _ - . @ ,`. -/
def isWordByte (b : UInt8) : Bool :=
  Bytes.isAlphanumeric b || b == Byte.colon || b == Byte.slash || b == Byte.underscore ||
    b == Byte.hyphen || b == Byte.dot || b == Byte.atSign || b == Byte.comma

/-- A place in a text and the text from there on. -/
structure Reader where
  /-- What is left. -/
  rest : Bytes
  /-- How many bytes have been passed. -/
  offset : Nat := 0
  place : Place := {}
  deriving DecidableEq, Repr

namespace Reader

/-- Passes a number of bytes of the same line. -/
def skip (r : Reader) (count : Nat) : Reader :=
  ⟨r.rest.drop count, r.offset + count, r.place.right count⟩

/-! ## Scanners -/

/-- Passes white space; newlines start new lines. -/
def skipSpaceFrom (offset : Nat) (place : Place) : Bytes → Reader
  | [] => ⟨[], offset, place⟩
  | b :: rest =>
    if Bytes.isSpace b then skipSpaceFrom (offset + 1) (place.past b) rest
    else ⟨b :: rest, offset, place⟩

/-- Passes white space. -/
def skipSpace (r : Reader) : Reader := skipSpaceFrom r.offset r.place r.rest

/-- Takes the word bytes that come next. -/
def takeWord (r : Reader) : Bytes × Reader :=
  let word := r.rest.takeWhile isWordByte
  (word, r.skip word.length)

/-- The content of a string up to the closing quote, the end of the line or the end of the text,
with the number of bytes that spell it. -/
def stringContent : Bytes → Bytes × Nat
  | [] => ([], 0)
  | Byte.backslash :: Byte.quote :: rest =>
    let (content, length) := stringContent rest
    (Byte.quote :: content, length + 2)
  | b :: rest =>
    if b == Byte.quote || b == Byte.newline then ([], 0)
    else
      let (content, length) := stringContent rest
      (b :: content, length + 1)

/-- What a string without its closing quote is reported as. -/
def unterminated : Bytes := ascii "unterminated string"

/-- Takes a string.  The first byte is taken for the opening quote, whatever it is. -/
def takeString (r : Reader) : Token × Reader :=
  let (content, length) := stringContent (r.rest.drop 1)
  let behind := r.skip (length + 1)
  if behind.rest.head? = some Byte.quote then (⟨.string, content, r.place⟩, behind.skip 1)
  else (⟨.invalid, unterminated, r.place⟩, behind)

/-- Whether a comment starts here. -/
def startsComment : Bytes → Bool
  | Byte.hash :: _ => true
  | Byte.slash :: Byte.slash :: _ => true
  | _ => false

/-- Takes one token; there must be no white space in front of it. -/
def next (r : Reader) : Token × Reader :=
  match r.rest with
  | [] => (⟨.finish, [], r.place⟩, r)
  | b :: _ =>
    if startsComment r.rest then
      (⟨.comment, [], r.place⟩, r.skip (r.rest.takeWhile (· != Byte.newline)).length)
    else if b == Byte.quote then r.takeString
    else if isWordByte b then
      let (word, behind) := r.takeWord
      (⟨if word.all Bytes.isDigit then .number else .word, word, r.place⟩, behind)
    else if b == Byte.semicolon then (⟨.semicolon, [b], r.place⟩, r.skip 1)
    else (⟨.invalid, [b], r.place⟩, r.skip 1)

/-! ## Every token takes something -/

/-- Skipping leaves that much less. -/
theorem length_skip (r : Reader) (count : Nat) :
    (r.skip count).rest.length = r.rest.length - count := by
  simp [skip]

/-- White space is passed forwards. -/
theorem length_skipSpaceFrom_le (offset : Nat) (place : Place) (text : Bytes) :
    (skipSpaceFrom offset place text).rest.length ≤ text.length := by
  induction text generalizing offset place with
  | nil => simp [skipSpaceFrom]
  | cons b rest ih =>
    rw [skipSpaceFrom]
    split
    · exact Nat.le_succ_of_le (ih _ _)
    · exact Nat.le_refl _

/-- White space is passed forwards. -/
theorem length_skipSpace_le (r : Reader) : r.skipSpace.rest.length ≤ r.rest.length :=
  length_skipSpaceFrom_le _ _ _

/-- A string takes at least its opening quote. -/
theorem length_takeString_lt {r : Reader} (h : r.rest ≠ []) :
    r.takeString.2.rest.length < r.rest.length := by
  have := List.length_pos_iff.2 h
  rw [takeString]
  dsimp only
  split <;> simp only [length_skip] <;> omega

/-- Where something is left, the next token takes some of it. -/
theorem length_next_lt {r : Reader} (h : r.rest ≠ []) : r.next.2.rest.length < r.rest.length := by
  obtain ⟨b, rest, hr⟩ := List.exists_cons_of_ne_nil h
  have positive := List.length_pos_iff.2 h
  rw [next]
  split
  case h_1 none => exact absurd none h
  case h_2 c tail same =>
    split
    case isTrue comment =>
      -- the first byte of a comment is no newline
      have first : (c != Byte.newline) = true := by
        rcases Decidable.em (c = Byte.newline) with newline | other
        · rw [same, newline] at comment
          exact nomatch (show false = true from comment)
        · simpa using other
      simp only [length_skip, same, List.takeWhile_cons, first, if_true, List.length_cons]
      omega
    case isFalse =>
      split
      case isTrue => exact length_takeString_lt h
      case isFalse =>
        split
        case isTrue word =>
          simp only [takeWord, length_skip, same, List.takeWhile_cons, word, if_true,
            List.length_cons]
          omega
        case isFalse => split <;> simp only [length_skip] <;> omega

end Reader

/-! ## All tokens -/

/-- The tokens of a text. -/
inductive Scan where
  /-- The tokens up to the end, comments left out, and where the end is. -/
  | complete (tokens : List Token) (finish : Place)
  /-- The tokens before a bad one, the bad one, and the place behind it. -/
  | failed (tokens : List Token) (bad : Token) (behind : Place)
  deriving DecidableEq, Repr

namespace Scan

/-- One more token in front. -/
def cons (token : Token) : Scan → Scan
  | complete tokens finish => complete (token :: tokens) finish
  | failed tokens bad behind => failed (token :: tokens) bad behind

/-- The tokens in front of the end or of the bad one; the end is listed as a token of its own. -/
def listed : Scan → List Token
  | complete tokens finish => tokens ++ [⟨.finish, [], finish⟩]
  | failed tokens _ _ => tokens

/-- The place where the scan stopped. -/
def stop : Scan → Place
  | complete _ finish => finish
  | failed _ _ behind => behind

/-- The message about a bad token. -/
def complaint (bad : Token) : Bytes :=
  bad.place.describe ++ ascii ": invalid token " ++ bad.text

end Scan

/-- The tokens of what is left. -/
def Reader.scan (r : Reader) : Scan :=
  if _some : r.skipSpace.rest = [] then .complete [] r.skipSpace.place
  else
    let token := r.skipSpace.next.1
    if token.kind = .invalid then .failed [] token r.skipSpace.next.2.place
    else if token.kind = .comment then r.skipSpace.next.2.scan
    else .cons token r.skipSpace.next.2.scan
termination_by r.rest.length
decreasing_by
  all_goals
    exact Nat.lt_of_lt_of_le (Reader.length_next_lt _some) (Reader.length_skipSpace_le r)

/-- The tokens of a text. -/
def scan (text : Bytes) : Scan := Reader.scan { rest := text }

/-! ## A tokenizer for many texts -/

/-- A tokenizer, which is used for one text after the other. -/
structure Tokenizer where
  tokens : List Token := []
  message : Bytes := []
  place : Place := {}
  deriving DecidableEq, Repr

namespace Tokenizer

/-- Takes the tokens of what is left of a text, from the line and column that the tokenizer is at: whether
there are no bad ones. -/
def takeAll (t : Tokenizer) (offset : Nat) (rest : Bytes) : Bool × Tokenizer :=
  let start := Reader.skipSpace ⟨rest, offset, t.place⟩
  if _some : start.rest = [] then
    (true, { t with tokens := t.tokens ++ [⟨.finish, [], start.place⟩], place := start.place })
  else
    let token := start.next.1
    let behind := start.next.2
    let moved := { t with place := behind.place }
    if token.kind = .invalid then (false, { moved with message := Scan.complaint token })
    else if token.kind = .comment then moved.takeAll behind.offset behind.rest
    else { moved with tokens := t.tokens ++ [token] }.takeAll behind.offset behind.rest
termination_by rest.length
decreasing_by
  all_goals
    exact Nat.lt_of_lt_of_le (Reader.length_next_lt _some) (Reader.length_skipSpace_le _)

/-- Takes the tokens of a text: whether there are no bad ones.  What was there before is dropped. -/
def tokenise (t : Tokenizer) (text : Bytes) : Bool × Tokenizer :=
  { t with tokens := [], message := [], place := {} }.takeAll 0 text

end Tokenizer

end Settings

end ClauseRouter
