import ClauseRouter.Path.Cursor

/-!
# Path templates

A template such as `users/:id/posts` is text with placeholders.  A placeholder is a colon and a
name of word bytes; it stands for one segment, and captures it.

* `Template.expand` — the pattern text of a template: every placeholder becomes a group that matches a
  segment.  The rest of the text is left as it is, so it may use all that patterns can do.
* `Template.isPlain` — whether every part between slashes is either a whole placeholder or text that
  means itself as a pattern.
* `Part.ofText`, `takeParts` — such a **plain** template needs no pattern: its parts are compared with
  the segments of the path one by one.
-/

namespace ClauseRouter

namespace Template

/-- The pattern text of a segment that is captured. -/
def segmentPattern : Bytes := ascii "([^/]+)"

/-- The pattern text of a template, read from its inside on: in the middle of a name, word bytes
belong to the placeholder. -/
def expandFrom (inName : Bool) : Bytes → Bytes
  | [] => []
  | b :: rest =>
    if inName && Bytes.isWordByte b then expandFrom true rest
    else if b == Byte.colon && rest.head?.any Bytes.isWordByte then
      segmentPattern ++ expandFrom true rest
    else b :: expandFrom false rest

/-- The pattern text of a template. -/
def expand (template : Bytes) : Bytes := expandFrom false template

/-- The bytes that a plain template may hold in placeholders only or not at all. -/
def special : Bytes := ascii "\\^$.|?*+()[]\x7b\x7d:"

/-- Whether a part between slashes is a whole placeholder or text without special bytes. -/
def isPlainPart : Bytes → Bool
  | Byte.colon :: name => !name.isEmpty && name.all Bytes.isWordByte
  | text => text.all fun b => !special.contains b

/-- Whether all parts of a template are plain. -/
def isPlain (template : Bytes) : Bool := (Bytes.split Byte.slash template).all isPlainPart

end Template

/-! ## Parts -/

/-- A part of a plain template. -/
inductive Part where
  /-- A segment with just this text. -/
  | literal (text : Bytes)
  /-- Any segment that is not empty; it is captured. -/
  | placeholder
  deriving DecidableEq, Repr

namespace Part

/-- The part that a text stands for: a colon with something after it is a placeholder. -/
def ofText : Bytes → Part
  | Byte.colon :: _ :: _ => placeholder
  | text => literal text

/-- Whether a segment fits a part. -/
def accepts : Part → Bytes → Bool
  | literal text, segment => segment == text
  | placeholder, segment => !segment.isEmpty

/-- What a part captures of a segment that fits it. -/
def captures : Part → Bytes → Captures
  | literal _, _ => []
  | placeholder, segment => [segment]

end Part

/-- The parts of a plain template. -/
def Template.parts (template : Bytes) : List Part := (Bytes.split Byte.slash template).map Part.ofText

/-- Compares parts with the segments in front of a path, each behind a slash: the captures, the bytes
taken and what is left. -/
def takeParts : List Part → Bytes → Option (Captures × Bytes × Bytes)
  | [], path => some ([], [], path)
  | part :: parts, Byte.slash :: path =>
    let segment := path.takeWhile (· != Byte.slash)
    if part.accepts segment then do
      let (found, taken, rest) ← takeParts parts (path.dropWhile (· != Byte.slash))
      return (part.captures segment ++ found, Byte.slash :: segment ++ taken, rest)
    else none
  | _ :: _, _ => none

/-- Consumes segments that fit a list of parts; an empty list fits nothing. -/
def Cursor.consumeParts (parts : List Part) (c : Cursor) : Consumption :=
  if parts.isEmpty then .rejected
  else
    match takeParts parts c.remaining with
    | none => .rejected
    | some (found, taken, rest) => .taken found ⟨c.consumed ++ taken, rest⟩

end ClauseRouter
