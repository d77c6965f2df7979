import ClauseRouter.Path.Template
import ClauseRouter.Pattern.Basic

/-!
# Patterns on paths

A pattern is matched in front of what remains of a path, and only against a **window** of it: as many
segments as the pattern can span, and the slash behind them.

* `Path.anchored` — the text of a pattern tied to the front of a path: a slash, the pattern as the
  first group, then a slash or the end.
* `Path.span` — the number of segments a pattern can span, by the slashes of its text.
* `Path.window` — the front of a path, and whether the path goes on behind it.  Where it does, the end
  of the window is not an end for the pattern.
* `Cursor.consume` — the match: the groups between the first and the last are captured, and a slash
  with the text of the first group is consumed.

A window of more than `Path.windowLimit` bytes is never searched.
-/

namespace ClauseRouter

namespace Path

/-- The text of a pattern tied to the front of a path. -/
def anchored (source : Bytes) : Bytes := ascii "^/(" ++ source ++ ascii ")(/|$)"

/-- The number of segments that a pattern can span: one more than there are slashes in its text. -/
def span (source : Bytes) : Nat := 1 + source.count Byte.slash

/-- The most bytes that a pattern is matched against. -/
def windowLimit : Nat := 4096

/-- The bytes up to the last of a number of slashes, if there are that many. -/
def throughSlashes? : Nat → Bytes → Option Bytes
  | 0, _ => some []
  | _ + 1, [] => none
  | n + 1, b :: rest =>
    (throughSlashes? (if b == Byte.slash then n else n + 1) rest).map (b :: ·)

/-- The window of a path for a number of segments, and whether the path goes on behind it.  The
first byte is in the window in any case, so its slash does not count; no segments of an empty path
are a window of the byte that terminates it. -/
def window (segments : Nat) : Bytes → Bytes × Bool
  | [] => if segments = 0 then ([Byte.nul], true) else ([], false)
  | b :: rest =>
    match throughSlashes? segments rest with
    | some text => (b :: text, true)
    | none => (b :: rest, false)

end Path

/-- Matches an anchored pattern in front of what remains of a path. -/
def Cursor.consume (pattern : Pattern) (segments : Nat) (c : Cursor) : Consumption :=
  let (window, goesOn) := Path.window segments c.remaining
  if window.length > Path.windowLimit then .rejected
  else
    match pattern.search? window goesOn with
    | none => .rejected
    | some slots =>
      let texts := slots.map fun slot => slot.getD []
      let found := texts.tail.dropLast
      let claimed := 1 + (texts.headD []).length
      match c.advance? claimed with
      | some after => .taken found after
      | none => .overrun found claimed c.remaining.length

/-! ## Tests of paths -/

/-- A prepared matcher of paths. -/
inductive PathTest where
  /-- The parts of a plain template. -/
  | parts (parts : List Part)
  /-- An anchored pattern, and the number of segments it can span. -/
  | pattern (anchored : Pattern) (span : Nat)
  deriving DecidableEq, Repr

namespace PathTest

/-- Runs a matcher of paths on a cursor. -/
def run : PathTest → Cursor → Consumption
  | parts list => Cursor.consumeParts list
  | pattern anchored span => Cursor.consume anchored span

/-- The matcher of a pattern text, unless the text is malformed when it is anchored. -/
def ofPattern? (source : Bytes) : Option PathTest :=
  (Pattern.compile? (Path.anchored source)).map fun anchored => pattern anchored (Path.span source)

/-- The matcher of a template: part by part if it is plain, else as the pattern that it expands to. -/
def ofTemplate? (template : Bytes) : Option PathTest :=
  if Template.isPlain template then some (parts (Template.parts template))
  else ofPattern? (Template.expand template)

/-- The matcher of any one segment. -/
def anySegment : PathTest := parts [.placeholder]

end PathTest

end ClauseRouter
