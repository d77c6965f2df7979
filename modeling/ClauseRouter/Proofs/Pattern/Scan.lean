import Mathlib.Tactic.Lemma
import ClauseRouter.Path.Window

/-!
# The tokens of an anchored pattern

`Path.anchored` puts text in front of a pattern and behind it.  That the tokens of the pattern are
then what they are for the pattern alone needs two things: behind the opening parenthesis the
pattern must not begin with a question mark, which would be read together with it, and whatever the
pattern has begun must be over when the closing parenthesis comes.

* `scanFrom_append_close` — a closing parenthesis after a text that is complete begins a new token.
* `scan_anchored` — the tokens of an anchored pattern.
-/

namespace ClauseRouter.Pattern.Token

/-- The tokens in front of an anchored pattern. -/
def anchorOpening : List Token := [.start, .one (.single Byte.slash), .opening .capture]

/-- The tokens behind an anchored pattern. -/
def anchorClosing : List Token :=
  [.closing, .opening .capture, .one (.single Byte.slash), .bar, .finish, .closing]

lemma scanFrom_cons {mode mode' : Mode} {b : UInt8} {tokens : List Token}
    (h : mode.step b = some (tokens, mode')) (rest : Bytes) :
    scanFrom mode (b :: rest) = (scanFrom mode' rest).map (tokens ++ ·) := by
  simp only [scanFrom, h, Option.bind_eq_bind, Option.bind_some, Option.pure_def]
  cases scanFrom mode' rest <;> rfl

/-- What is complete stays as it is when a closing parenthesis follows. -/
lemma Mode.step_close {mode : Mode} {tokens : List Token} (h : mode.finish = some tokens) :
    mode.step Byte.closeParen = some (tokens ++ [.closing], .plain) := by
  cases mode with
  | plain => cases h; rfl
  | reference number => cases h; rfl
  | repeated repetition => cases h; rfl
  | _ => cases h

lemma scanFrom_append_close {source : Bytes} (rest : Bytes) :
    ∀ {mode : Mode} {tokens : List Token}, scanFrom mode source = some tokens →
      scanFrom mode (source ++ Byte.closeParen :: rest)
        = (scanFrom .plain rest).map (tokens ++ .closing :: ·) := by
  induction source with
  | nil =>
      intro mode tokens h
      rw [List.nil_append, scanFrom_cons (Mode.step_close h)]
      simp
  | cons b source ih =>
      intro mode tokens h
      cases step : mode.step b with
      | none => simp [scanFrom, step] at h
      | some next =>
          obtain ⟨first, mode'⟩ := next
          rw [scanFrom_cons step, Option.map_eq_some_iff] at h
          obtain ⟨more, scanned, rfl⟩ := h
          rw [List.cons_append, scanFrom_cons step, ih scanned]
          simp [Function.comp_def]

/-- Behind an opening parenthesis only a question mark is read together with it. -/
lemma scanFrom_paren {b : UInt8} (ne : b ≠ Byte.question) (rest : Bytes) :
    scanFrom .paren (b :: rest) = (scanFrom .plain (b :: rest)).map (.opening .capture :: ·) := by
  have step : Mode.step .paren b
      = some (.opening .capture :: (Mode.plainStep b).1, (Mode.plainStep b).2) := by
    simp [Mode.step, ne, Mode.emit]
  have plain : Mode.step .plain b = some ((Mode.plainStep b).1, (Mode.plainStep b).2) := rfl
  rw [scanFrom_cons step, scanFrom_cons plain, Option.map_map]
  rfl

lemma anchored_eq (source : Bytes) :
    Path.anchored source = Byte.caret :: Byte.slash :: Byte.openParen :: (source ++
      [Byte.closeParen, Byte.openParen, Byte.slash, Byte.bar, Byte.dollar, Byte.closeParen]) := by
  have before : ascii "^/(" = [Byte.caret, Byte.slash, Byte.openParen] := by decide
  have behind : ascii ")(/|$)" = [Byte.closeParen, Byte.openParen, Byte.slash, Byte.bar,
      Byte.dollar, Byte.closeParen] := by decide
  rw [Path.anchored, before, behind]
  rfl

/-- **The tokens of an anchored pattern** are those of the pattern between those of the anchors. -/
lemma scan_anchored {source : Bytes} {tokens : List Token} (h : scan source = some tokens)
    (ne : source.head? ≠ some Byte.question) :
    scan (Path.anchored source) = some (anchorOpening ++ tokens ++ anchorClosing) := by
  have behind : scanFrom .plain [Byte.openParen, Byte.slash, Byte.bar, Byte.dollar,
      Byte.closeParen] = some anchorClosing.tail := rfl
  have inside : scanFrom .paren (source ++ [Byte.closeParen, Byte.openParen, Byte.slash, Byte.bar,
      Byte.dollar, Byte.closeParen]) = some (.opening .capture :: (tokens ++ anchorClosing)) := by
    have scanned := scanFrom_append_close [Byte.openParen, Byte.slash, Byte.bar, Byte.dollar,
      Byte.closeParen] h
    rw [behind] at scanned
    cases source with
    | nil => rw [List.nil_append, scanFrom_paren (by decide)]; simp_all [anchorClosing]
    | cons b source =>
        have first : b ≠ Byte.question := fun e => ne (by rw [e]; rfl)
        rw [List.cons_append, scanFrom_paren first, ← List.cons_append, scanned]
        rfl
  have caret : Mode.step .plain Byte.caret = some ([.start], .plain) := rfl
  have slash : Mode.step .plain Byte.slash = some ([.one (.single Byte.slash)], .plain) := rfl
  have paren : Mode.step .plain Byte.openParen = some ([], .paren) := rfl
  rw [scan, anchored_eq, scanFrom_cons caret, scanFrom_cons slash, scanFrom_cons paren, inside]
  rfl

end ClauseRouter.Pattern.Token
