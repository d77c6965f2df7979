import ClauseRouter.Proofs.Settings.Lexemes
import ClauseRouter.Proofs.Settings.RoundTrip

/-!
# Tokens that are printed and read again

The tokens of a text, spelled one after the other with a blank between each two, are read again as they
were: all that is lost is white space, comments and places.

* `Settings.reprinted` — the text of a list of tokens.
* `Reader.scan_reprinted` — tokens that could be read somewhere are read from there.
* `Token.IsRunOf` — a word or number is a **maximal run** of word bytes in its text.
* `Settings.reprint_keeps` — both together, for every text that falls into tokens.

That the words of a text are maximal needs a look at what is in front of them: what can stand there ends
with a byte that is no part of a word, or it was a word that has taken all it could (`Apart`).
-/

namespace ClauseRouter.Settings

/-! ## Printing -/

/-- How a token is spelled. -/
def Token.spelled (token : Token) : Bytes := token.kind.spell token.text

/-- What a token says, wherever it stands. -/
def Token.meaning (token : Token) : TokenKind × Bytes := (token.kind, token.text)

/-- The text of a list of tokens, with a blank between each two. -/
def reprinted (tokens : List Token) : Bytes := Bytes.join Byte.space (tokens.map Token.spelled)

lemma reprinted_singleton (token : Token) : reprinted [token] = token.spelled := by
  rw [reprinted, List.map_singleton, Bytes.join, List.intercalate_singleton]

lemma reprinted_cons_cons (token next : Token) (tokens : List Token) :
    reprinted (token :: next :: tokens)
      = token.spelled ++ Byte.space :: reprinted (next :: tokens) :=
  Bytes.join_cons_cons _ _ _ _

namespace Lexeme

variable {kind : TokenKind} {text rest : Bytes}

/-- What can be read in front of one text can be read in front of all that go on with no word byte. -/
lemma mono (lexeme : Lexeme kind text rest) {rest' : Bytes} (ends : Ends rest') :
    Lexeme kind text rest' := by
  cases lexeme with
  | word isKey _ => exact .word isKey ends
  | number isWord digits _ => exact .number isWord digits ends
  | string isValue => exact .string isValue
  | semicolon => exact .semicolon

/-- No token begins with white space. -/
lemma exists_spell_eq_cons (lexeme : Lexeme kind text rest) :
    ∃ b tail, kind.spell text = b :: tail ∧ Bytes.isSpace b = false := by
  have word {text : Bytes} (isWord : IsWord text) :
      ∃ b tail, text = b :: tail ∧ Bytes.isSpace b = false := by
    obtain ⟨b, tail, rfl⟩ := List.exists_cons_of_ne_nil isWord.nonempty
    exact ⟨b, tail, rfl, (isWordByte_elsewhere (isWord.bytes b List.mem_cons_self)).1⟩
  cases lexeme with
  | word isKey _ => exact word isKey.toIsWord
  | number isWord _ _ => exact word isWord
  | string _ => exact ⟨_, _, rfl, by decide⟩
  | semicolon => exact ⟨_, _, rfl, by decide⟩

lemma listed (lexeme : Lexeme kind text rest) : kind ≠ .invalid ∧ kind ≠ .comment := by
  cases lexeme <;> simp

/-- A token that can be read comes first in the scan, and what stands behind it is scanned then. -/
lemma scan (lexeme : Lexeme kind text rest) {r : Reader} (front : r.rest = kind.spell text ++ rest) :
    ∃ behind : Reader, behind.rest = rest ∧ r.scan = .cons ⟨kind, text, r.place⟩ behind.scan := by
  obtain ⟨b, tail, spelled, solid⟩ := lexeme.exists_spell_eq_cons
  have first : r.rest = b :: (tail ++ rest) := by rw [front, spelled, List.cons_append]
  refine ⟨r.skip (kind.spell text).length, ?_, ?_⟩
  · rw [Reader.skip, front, List.drop_left]
  · exact Reader.scan_token first solid (lexeme.next front) lexeme.listed.1 lexeme.listed.2

end Lexeme

/-- **Tokens that could be read somewhere are read from where they are printed.** -/
lemma Reader.scan_reprinted {tokens : List Token}
    (lexemes : ∀ token ∈ tokens, ∃ rest, Lexeme token.kind token.text rest) {r : Reader}
    (front : r.rest = reprinted tokens) :
    ∃ again finish, r.scan = .complete again finish ∧
      again.map Token.meaning = tokens.map Token.meaning := by
  induction tokens generalizing r with
  | nil =>
      obtain ⟨text, offset, place⟩ := r
      cases front
      exact ⟨[], place, by rw [Reader.scan]; rfl, rfl⟩
  | cons token tokens ih =>
      obtain ⟨⟨_, first⟩, others⟩ := List.forall_mem_cons.mp lexemes
      -- behind the token there is a blank or nothing, and then the other tokens
      have behind : ∃ later : Reader, later.rest = reprinted tokens ∧
          r.scan = .cons ⟨token.kind, token.text, r.place⟩ later.scan := by
        cases tokens with
        | nil =>
            have alone : r.rest = token.kind.spell token.text ++ [] := by
              rw [front, reprinted_singleton, List.append_nil, Token.spelled]
            have ends : Ends [] := by simp [Ends]
            exact (first.mono ends).scan alone
        | cons next tokens =>
            have spaced : r.rest
                = token.kind.spell token.text ++ Byte.space :: reprinted (next :: tokens) :=
              front.trans (reprinted_cons_cons token next tokens)
            have ends : Ends (Byte.space :: reprinted (next :: tokens)) := by
              simp [Ends]
              decide
            obtain ⟨blank, left, scanned⟩ := (first.mono ends).scan spaced
            obtain ⟨later, left, skipped⟩ := Reader.scan_space left (by decide)
            exact ⟨later, left, by rw [scanned, skipped]⟩
      obtain ⟨later, left, scanned⟩ := behind
      obtain ⟨again, finish, rest, same⟩ := ih others left
      refine ⟨⟨token.kind, token.text, r.place⟩ :: again, finish, by rw [scanned, rest]; rfl, ?_⟩
      rw [List.map_cons, List.map_cons, same]
      rfl

/-! ## Maximal runs -/

/-- **A token is a maximal run** of word bytes in a text: where it says that it stands there is all of its
text, and neither what is in front of it nor what is behind goes on with a word byte. -/
def Token.IsRunOf (token : Token) (text : Bytes) : Prop :=
  ∃ front rest, text = front ++ token.text ++ rest ∧ token.place = .behind front ∧
    token.text ≠ [] ∧ (∀ b ∈ token.text, isWordByte b) ∧
    (∀ b, front.getLast? = some b → isWordByte b = false) ∧ Ends rest

/-- What is left does not go on with a word of the front. -/
def Apart (front rest : Bytes) : Prop :=
  ∀ b, front.getLast? = some b → isWordByte b → Ends rest

/-- The bytes of a word or number, and how they are told apart. -/
lemma Lexeme.run {kind : TokenKind} {text rest : Bytes} (lexeme : Lexeme kind text rest)
    (run : kind = .word ∨ kind = .number) :
    kind.spell text = text ∧ IsWord text ∧ Ends rest ∧
      (kind = .number ↔ ∀ b ∈ text, Bytes.isDigit b) := by
  cases lexeme with
  | word isKey ends => exact ⟨rfl, isKey.toIsWord, ends, by simpa using isKey.noNumber⟩
  | number isWord digits ends => exact ⟨rfl, isWord, ends, iff_of_true rfl digits⟩
  | string _ => simp at run
  | semicolon => simp at run

/-- Behind a token there is no word byte, or the token did not end with one. -/
lemma Lexeme.apart {kind : TokenKind} {text rest : Bytes} (lexeme : Lexeme kind text rest)
    (front : Bytes) : Apart (front ++ kind.spell text) rest := by
  cases lexeme with
  | word _ ends => exact fun _ _ _ => ends
  | number _ _ ends => exact fun _ _ _ => ends
  | string _ =>
      intro b last word
      obtain rfl : b = Byte.quote := by
        rw [TokenKind.spell, quoted, ← List.append_assoc, List.getLast?_concat] at last
        exact (Option.some.inj last).symm
      exact absurd word (by decide)
  | semicolon =>
      intro b last word
      obtain rfl : b = Byte.semicolon := (Option.some.inj (List.getLast?_concat.symm.trans last)).symm
      exact absurd word (by decide)

namespace Laid

variable {front rest : Bytes} {scan : Scan}

/-- Every token of a complete scan could be read where it stands. -/
lemma lexeme_of_complete {tokens : List Token} {finish : Place}
    (laid : Laid front rest (.complete tokens finish)) :
    ∀ token ∈ tokens, ∃ rest, Lexeme token.kind token.text rest := by
  generalize same : Scan.complete tokens finish = scan at laid
  induction laid generalizing tokens with
  | finish => cases same; simp
  | blank _ _ ih | comment _ _ _ _ ih => exact ih same
  | @token _ _ _ _ scan lexeme _ ih =>
      cases scan with
      | complete => cases same; exact List.forall_mem_cons.mpr ⟨⟨_, lexeme⟩, ih rfl⟩
      | failed => cases same
  | bad _ => cases same

/-- **Words and numbers are maximal runs,** if none goes on from the front into what is left. -/
lemma isRunOf {tokens : List Token} {finish : Place}
    (laid : Laid front rest (.complete tokens finish)) (apart : Apart front rest) :
    ∀ token ∈ tokens, token.kind = .word ∨ token.kind = .number → token.IsRunOf (front ++ rest) := by
  generalize same : Scan.complete tokens finish = scan at laid
  induction laid generalizing tokens with
  | finish => cases same; simp
  | @blank front blank rest _ spaces _ ih =>
      rw [← List.append_assoc]
      refine ih (fun b last word => ?_) same
      cases blank using List.reverseRecOn with
      | nil => exact apart b (by simpa using last) word
      | append_singleton blank c =>
          -- white space is no part of a word
          obtain rfl : c = b := by simpa [← List.append_assoc] using last
          have solid := (isWordByte_elsewhere word).1
          simp [spaces c (by simp)] at solid
  | comment _ _ ends _ ih =>
      rw [← List.append_assoc]
      refine ih (fun _ _ _ c first => ?_) same
      rw [ends c first]
      decide
  | @token front text rest kind scan lexeme _ ih =>
      cases scan with
      | failed => cases same
      | complete =>
          cases same
          rw [← List.append_assoc]
          refine List.forall_mem_cons.mpr ⟨fun run => ?_, ih (lexeme.apart front) rfl⟩
          obtain ⟨spelled, isWord, ends, _⟩ := lexeme.run run
          refine ⟨front, rest, by rw [spelled], rfl, isWord.nonempty, isWord.bytes, ?_, ends⟩
          intro b last
          by_contra word
          -- then nothing of the word could be behind it
          obtain ⟨c, tail, same⟩ := List.exists_cons_of_ne_nil isWord.nonempty
          have stops := apart b last (by simpa using word) c (by rw [spelled, same]; rfl)
          rw [isWord.bytes c (by rw [same]; exact List.mem_cons_self)] at stops
          cases stops
  | bad _ => cases same

end Laid

/-- **Reprinting tokens loses nothing.**  If a text falls into tokens, then so does what is printed of
them, and the tokens are the same there, by their kinds and values, in the same order.

* Every word and every number of the text is a maximal run of word bytes in it.
* It is a number exactly if all of these are digits. -/
theorem reprint_keeps {text : Bytes} {tokens : List Token} {finish : Place}
    (accepted : scan text = .complete tokens finish) :
    (∃ again finish', scan (reprinted tokens) = .complete again finish' ∧
      again.map Token.meaning = tokens.map Token.meaning) ∧
    ∀ token ∈ tokens, token.kind = .word ∨ token.kind = .number →
      token.IsRunOf text ∧ (token.kind = .number ↔ ∀ b ∈ token.text, Bytes.isDigit b) := by
  have laid := laid_scan text
  rw [accepted] at laid
  have lexemes := laid.lexeme_of_complete
  refine ⟨Reader.scan_reprinted lexemes rfl, fun token mem run => ⟨?_, ?_⟩⟩
  · exact laid.isRunOf (by simp [Apart]) token mem run
  · obtain ⟨_, lexeme⟩ := lexemes token mem
    exact (lexeme.run run).2.2.2

/-- A directive that has tokens of all kinds, a comment in it, and a quote in its string. -/
theorem reprint_keeps_of_directive :
    (∃ again finish', scan (reprinted [⟨.word, ascii "port", ⟨1, 1⟩⟩, ⟨.number, ascii "80", ⟨2, 1⟩⟩,
        ⟨.string, [0x61, Byte.quote], ⟨2, 3⟩⟩, ⟨.semicolon, [Byte.semicolon], ⟨2, 8⟩⟩])
        = .complete again finish' ∧
      again.map Token.meaning = [(.word, ascii "port"), (.number, ascii "80"),
        (.string, [0x61, Byte.quote]), (.semicolon, [Byte.semicolon])]) ∧
    Token.IsRunOf ⟨.number, ascii "80", ⟨2, 1⟩⟩
      (ascii "port # it\n80" ++ quoted [0x61, Byte.quote] ++ [Byte.semicolon]) := by
  have accepted : scan (ascii "port # it\n80" ++ quoted [0x61, Byte.quote] ++ [Byte.semicolon])
      = .complete [⟨.word, ascii "port", ⟨1, 1⟩⟩, ⟨.number, ascii "80", ⟨2, 1⟩⟩,
        ⟨.string, [0x61, Byte.quote], ⟨2, 3⟩⟩, ⟨.semicolon, [Byte.semicolon], ⟨2, 8⟩⟩] ⟨2, 9⟩ := by
    decide +kernel
  obtain ⟨again, runs⟩ := reprint_keeps accepted
  exact ⟨again, (runs _ (.tail _ (.head _)) (.inr rfl)).1⟩

end ClauseRouter.Settings
