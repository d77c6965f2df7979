import ClauseRouter.Proofs.Settings.Lexemes

/-!
# Tokens tell where they stand

A tokenizer may be used for one text after the other, and each time it keeps what it has found: tokens,
a message, and the line and column where it stopped.  Nothing of that may show in what it tells of the next
text.

* `Tokenizer.tokenise_eq` — what it holds behind a text is what the scan of the text says, whatever it
  held before.
* `Tokenizer.tokenise_places` — every token tells the place where it begins in the text, the tokens are in
  the order of their places, and the message about a bad token tells where that one begins.
-/

namespace ClauseRouter.Settings

namespace Tokenizer

/-- What a tokenizer holds behind a scan. -/
def told (t : Tokenizer) : Scan → Bool × Tokenizer
  | .complete tokens finish => (true, { t with
      tokens := t.tokens ++ (Scan.complete tokens finish).listed, place := finish })
  | .failed tokens bad stop => (false,
      ⟨t.tokens ++ (Scan.failed tokens bad stop).listed, Scan.complaint bad, stop⟩)

/-- A scan tells where it stopped, so where the tokenizer was before makes no difference. -/
lemma told_moved (t : Tokenizer) (place : Place) (scan : Scan) :
    ({ t with place } : Tokenizer).told scan = t.told scan := by
  cases scan <;> rfl

lemma told_cons (t : Tokenizer) (token : Token) (scan : Scan) :
    ({ t with tokens := t.tokens ++ [token] } : Tokenizer).told scan = t.told (.cons token scan) := by
  cases scan <;> simp [told, Scan.cons, Scan.listed]

/-- To take all tokens is to scan. -/
lemma takeAll_eq (t : Tokenizer) (offset : Nat) (rest : Bytes) :
    t.takeAll offset rest = t.told (Reader.scan ⟨rest, offset, t.place⟩) := by
  fun_induction takeAll t offset rest with
  | case1 t offset rest start none =>
      rw [Reader.scan, dif_pos none]
      rfl
  | case2 t offset rest start =>
      rename_i some_left token behind moved invalid
      rw [Reader.scan, dif_neg some_left, if_pos invalid]
      simp [told, Scan.listed, moved, behind, start, token]
  | case3 t offset rest start =>
      rename_i some_left token behind moved valid comment ih
      rw [Reader.scan, dif_neg some_left, if_neg valid, if_pos comment, ih, told_moved]
  | case4 t offset rest start =>
      rename_i some_left token behind moved valid listed ih
      rw [Reader.scan, dif_neg some_left, if_neg valid, if_neg listed, ih, ← told_cons,
        ← told_moved]

/-- **Whatever it did before,** a tokenizer holds what the scan of the text says. -/
lemma tokenise_eq (before : Tokenizer) (text : Bytes) :
    before.tokenise text = ({} : Tokenizer).told (scan text) :=
  takeAll_eq { before with tokens := [], message := [], place := {} } 0 text

/-- **Every token tells where it stands.**  Whatever the tokenizer did before, it takes from a text what
is laid out there, and then:

* Every token begins in the text at the place that it tells, by the newlines in front of it and the bytes
  behind the last of them.  For the token of the end that is the place behind the text.
* The tokens are in the order of their places, and no two of them tell the same one.
* If a text is refused, then no token can be read behind some front of it, all tokens have places in front
  of that, and the message tells the line and column where it is. -/
theorem tokenise_places (before : Tokenizer) (text : Bytes) :
    ∃ accepted after, before.tokenise text = (accepted, after) ∧
      (accepted, after) = ({} : Tokenizer).told (scan text) ∧ Laid [] text (scan text) ∧
      (∀ token ∈ after.tokens, token.StandsIn text) ∧
      after.tokens.Pairwise (·.place < ·.place) ∧
      (accepted = true →
        after.tokens.getLast? = some ⟨.finish, [], .behind text⟩ ∧ after.message = []) ∧
      (accepted = false → ∃ front rest what, text = front ++ rest ∧ Misfit rest what ∧
        (∀ token ∈ after.tokens, token.place < .behind front) ∧
        after.message = ascii "line " ++ Decimal.natural (1 + front.count Byte.newline)
          ++ ascii ", col "
          ++ Decimal.natural (1 + (front.rtakeWhile (· != Byte.newline)).length)
          ++ ascii ": invalid token " ++ what) := by
  have laid := laid_scan text
  have stands := laid.standsIn
  have ordered := laid.pairwise
  refine ⟨_, _, tokenise_eq before text, rfl, laid, ?_⟩
  cases scanned : scan text with
  | complete tokens finish =>
      rw [scanned] at stands ordered
      refine ⟨stands, ordered, fun _ => ⟨?_, rfl⟩, nofun⟩
      obtain ⟨front, rest, whole, here, begins⟩ := stands _ (List.mem_append_right tokens (.head _))
      cases begins with
      | lexeme lexeme => cases lexeme
      | finish =>
          rw [List.nil_append, List.append_nil] at whole
          rw [whole, ← here]
          exact List.getLast?_concat
  | failed tokens bad stop =>
      rw [scanned] at stands ordered
      obtain ⟨inside, _, earlier⟩ := List.pairwise_append.mp ordered
      refine ⟨fun token mem => stands token (List.mem_append_left _ mem), inside, nofun, fun _ => ?_⟩
      obtain ⟨front, rest, whole, here, begins⟩ := stands bad (List.mem_append_right tokens (.head _))
      obtain ⟨kind, what, place⟩ := bad
      obtain rfl : kind = .invalid := (scanned ▸ laid).kind_of_failed
      cases begins with
      | lexeme lexeme => cases lexeme
      | misfit misfit =>
          obtain rfl : place = .behind front := here
          exact ⟨front, rest, what, whole, misfit, fun token mem => earlier token mem _ (.head _), rfl⟩

-- a string that is never closed is told by its opening quote
example (before : Tokenizer) : (before.tokenise (ascii "a\n \"b")).2.message
    = ascii "line 2, col 2: invalid token unterminated string" := by
  rw [tokenise_eq]
  decide +kernel

end Tokenizer

end ClauseRouter.Settings
