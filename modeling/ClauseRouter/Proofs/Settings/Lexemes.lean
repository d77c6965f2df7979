import Mathlib.Data.List.DropRight
import ClauseRouter.Proofs.Settings.Tokens

/-!
# How a text falls into tokens

What a scan makes of a text, told by what stands in front of every token and by what follows it, and not
by a reader that keeps count.

* `Place.behind` — the place behind a text, counted in the text itself.  Further on is a later place
  (`Place.behind_lt`).
* `Lexeme kind text rest` — a token can be read in front of `rest`.  Words take all they can.
* `Misfit rest what` — no token can be read here, and this is what is told of it.
* `Laid front rest scan` — **the scan of a text** behind its front.  `Reader.laid_scan` says that a scan
  is always laid out like that.
* `Scan.marks` — the tokens of a scan, and the end or the bad token behind them.  `Laid.standsIn` and
  `Laid.pairwise` tell where they stand, and in which order.
-/

namespace ClauseRouter

/-! ## Places -/

namespace Place

/-- **The place behind a text:** its line counts the newlines, and its column the bytes behind the last of
them. -/
def behind (front : Bytes) : Place where
  line := 1 + front.count Byte.newline
  column := 1 + (front.rtakeWhile (· != Byte.newline)).length

lemma behind_nil : behind [] = {} := rfl

lemma behind_concat (front : Bytes) (b : UInt8) : behind (front ++ [b]) = (behind front).past b := by
  by_cases line : b = Byte.newline
  · simp [behind, past, nextLine, line, Nat.add_assoc]
  · simp [behind, past, right, line, Nat.add_assoc]

/-- A reader that passes bytes one by one is at the place behind them. -/
lemma behind_append (front text : Bytes) :
    behind (front ++ text) = text.foldl past (behind front) := by
  induction text generalizing front with
  | nil => rw [List.append_nil]; rfl
  | cons b text ih => rw [List.append_cons, ih, behind_concat, List.foldl_cons]

/-- On one line it is enough to count. -/
lemma behind_line (front : Bytes) {text : Bytes} (line : Byte.newline ∉ text) :
    behind (front ++ text) = (behind front).right text.length := by
  induction text generalizing front with
  | nil => rw [List.append_nil]; rfl
  | cons b text ih =>
      obtain ⟨first, others⟩ := List.ne_and_not_mem_of_not_mem_cons line
      rw [List.append_cons, ih _ others, behind_concat, past, if_neg (by simpa using first.symm)]
      simp [right, Nat.add_assoc, Nat.add_comm 1]

/-- One place is in front of another: on an earlier line, or on the same one in an earlier column. -/
instance : LT Place := ⟨fun p q => p.line < q.line ∨ p.line = q.line ∧ p.column < q.column⟩

instance (p q : Place) : Decidable (p < q) := inferInstanceAs (Decidable (_ ∨ _ ∧ _))

lemma lt_iff {p q : Place} : p < q ↔ p.line < q.line ∨ p.line = q.line ∧ p.column < q.column := Iff.rfl

lemma lt_trans {p q r : Place} (first : p < q) (second : q < r) : p < r := by
  rw [lt_iff] at *
  omega

lemma lt_past (p : Place) (b : UInt8) : p < p.past b := by
  rw [lt_iff, past]
  split
  · exact .inl (Nat.lt_succ_self _)
  · exact .inr ⟨rfl, Nat.lt_succ_self _⟩

/-- **Further on in a text is a later place.** -/
lemma behind_lt (front : Bytes) {more : Bytes} (some_more : more ≠ []) :
    behind front < behind (front ++ more) := by
  induction more generalizing front with
  | nil => exact absurd rfl some_more
  | cons b more ih =>
      have first : behind front < behind (front ++ [b]) := behind_concat front b ▸ lt_past _ b
      cases more with
      | nil => exact first
      | cons c more =>
          rw [List.append_cons]
          exact lt_trans first (ih _ (List.cons_ne_nil c more))

end Place

namespace Settings

/-! ## Single tokens -/

/-- How a token is spelled: a string in quotes, a semicolon as such, and all else as it is. -/
def TokenKind.spell : TokenKind → Bytes → Bytes
  | .string, text => quoted text
  | .semicolon, _ => [Byte.semicolon]
  | _, text => text

/-- No word byte comes next. -/
def Ends (rest : Bytes) : Prop := ∀ b, rest.head? = some b → isWordByte b = false

/-- **A token that can be read in front of a text.**  What follows a word does not go on with it. -/
inductive Lexeme : TokenKind → (text rest : Bytes) → Prop
  | word {text rest : Bytes} (isKey : IsKey text) (ends : Ends rest) : Lexeme .word text rest
  | number {text rest : Bytes} (isWord : IsWord text) (digits : ∀ b ∈ text, Bytes.isDigit b)
      (ends : Ends rest) : Lexeme .number text rest
  | string {text rest : Bytes} (isValue : IsValue text) : Lexeme .string text rest
  | semicolon {rest : Bytes} : Lexeme .semicolon [Byte.semicolon] rest

/-- **No token can be read here:** there is a quote that is never closed, or a byte that starts nothing. -/
inductive Misfit : (rest what : Bytes) → Prop
  | unclosed {rest : Bytes} (first : rest.head? = some Byte.quote)
      (unclosed : ∀ value behind, IsValue value → rest ≠ quoted value ++ behind) :
      Misfit rest Reader.unterminated
  | stray {b : UInt8} {rest : Bytes} (solid : Bytes.isSpace b = false) (noWord : isWordByte b = false)
      (others : b ∉ [Byte.quote, Byte.semicolon, Byte.hash]) : Misfit (b :: rest) [b]

lemma mem_escaped {b : UInt8} {value : Bytes} (mem : b ∈ escaped value) :
    b = Byte.backslash ∨ b ∈ value := by
  induction value with
  | nil => cases mem
  | cons c value ih =>
      rw [escaped] at mem
      split at mem <;> simp only [List.mem_cons] at mem ⊢ <;> grind

namespace Lexeme

variable {kind : TokenKind} {text rest : Bytes}

/-- A token takes something, -/
lemma spell_ne_nil (lexeme : Lexeme kind text rest) : kind.spell text ≠ [] := by
  cases lexeme with
  | word isKey _ => exact isKey.nonempty
  | number isWord _ _ => exact isWord.nonempty
  | string _ => exact List.cons_ne_nil _ _
  | semicolon => exact List.cons_ne_nil _ _

/-- and stays on its line. -/
lemma oneLine (lexeme : Lexeme kind text rest) : Byte.newline ∉ kind.spell text := by
  cases lexeme with
  | word isKey _ => exact isKey.isValue.oneLine
  | number isWord _ _ => exact isWord.isValue.oneLine
  | string isValue =>
      intro mem
      rcases List.mem_append.mp mem with mem | mem
      · rcases List.mem_cons.mp mem with quote | mem
        · exact absurd quote (by decide)
        · rcases mem_escaped mem with backslash | mem
          · exact absurd backslash (by decide)
          · exact isValue.oneLine mem
      · exact absurd mem (by decide)
  | semicolon => exact by decide

/-- **A token that can be read is read.** -/
lemma next (lexeme : Lexeme kind text rest) {r : Reader} (front : r.rest = kind.spell text ++ rest) :
    r.next = (⟨kind, text, r.place⟩, r.skip (kind.spell text).length) := by
  cases lexeme with
  | word isKey ends =>
      have noNumber : ¬ text.all Bytes.isDigit := fun digits =>
        isKey.noNumber (List.all_eq_true.mp digits)
      rw [Reader.next_word isKey.toIsWord ends front, if_neg noNumber]
      rfl
  | number isWord digits ends =>
      rw [Reader.next_word isWord ends front, if_pos (List.all_eq_true.mpr digits)]
      rfl
  | string isValue => exact Reader.next_quoted isValue front
  | semicolon => exact Reader.next_semicolon front

end Lexeme

namespace Reader

/-! ## What a reader takes -/

/-- **What a reader takes where something is left:** a comment, a token that can be read here, or what
is told of a misfit. -/
inductive Takes (r : Reader) : Token → Reader → Prop
  | comment {comment rest : Bytes} (left : r.rest = comment ++ rest) (starts : startsComment r.rest)
      (oneLine : Byte.newline ∉ comment) (ends : ∀ b, rest.head? = some b → b = Byte.newline) :
      r.Takes ⟨.comment, [], r.place⟩ (r.skip comment.length)
  | token {kind : TokenKind} {text rest : Bytes} (left : r.rest = kind.spell text ++ rest)
      (lexeme : Lexeme kind text rest) :
      r.Takes ⟨kind, text, r.place⟩ (r.skip (kind.spell text).length)
  | misfit {what : Bytes} {behind : Reader} (misfit : Misfit r.rest what) :
      r.Takes ⟨.invalid, what, r.place⟩ behind

/-- What has been taken of a string is spelled like its content. -/
lemma escaped_stringContent (text : Bytes) :
    escaped (stringContent text).1 = text.take (stringContent text).2 := by
  fun_induction stringContent text with
  | case1 => rfl
  | case2 rest content length same ih =>
      rw [same] at ih
      simp [escaped, ih]
  | case3 => rfl
  | case4 b rest escape goesOn content length same ih =>
      rw [same] at ih
      obtain ⟨quote, line⟩ : b ≠ Byte.quote ∧ b ≠ Byte.newline := by simpa using goesOn
      simp [escaped, quote, ih]

/-- A string is read as it is spelled, or there is no string. -/
lemma takes_takeString {r : Reader} {tail : Bytes} (left : r.rest = Byte.quote :: tail) :
    r.Takes r.takeString.1 r.takeString.2 := by
  by_cases closed : (tail.drop (stringContent tail).2).head? = some Byte.quote
  · obtain ⟨rest, behind⟩ := List.head?_eq_some_iff.mp closed
    have spelled : r.rest = TokenKind.string.spell (stringContent tail).1 ++ rest := by
      have taken := List.take_append_drop (stringContent tail).2 tail
      rw [behind, ← escaped_stringContent] at taken
      simp [TokenKind.spell, quoted, left, taken]
    have lexeme : Lexeme .string (stringContent tail).1 rest := .string (isValue_stringContent tail closed)
    have taken := lexeme.next spelled
    have string : r.next = r.takeString := by rw [next, left]; rfl
    rw [← string, taken]
    exact .token spelled lexeme
  · have taken : r.takeString = (⟨.invalid, unterminated, r.place⟩,
        r.skip ((stringContent tail).2 + 1)) := by
      rw [takeString, left]
      simp only [skip, List.drop_succ_cons, List.drop_zero, left, if_neg closed]
    rw [taken]
    refine .misfit (.unclosed (by rw [left]; rfl) fun value behind isValue spelled => closed ?_)
    -- what is spelled like a string would have been read
    have inside : tail = escaped value ++ Byte.quote :: behind := by
      simpa [quoted, left] using spelled
    rw [inside, stringContent_escaped isValue]
    simp

/-- A word, or a number, is as long as there are word bytes. -/
lemma takes_takeWord {r : Reader} {b : UInt8} {tail : Bytes} (left : r.rest = b :: tail)
    (word : isWordByte b) (noComment : startsComment r.rest = false) :
    r.Takes ⟨if r.takeWord.1.all Bytes.isDigit then .number else .word, r.takeWord.1, r.place⟩
      r.takeWord.2 := by
  have isWord := isWord_takeWord left word noComment
  have whole : r.rest = r.takeWord.1 ++ r.rest.dropWhile isWordByte :=
    List.takeWhile_append_dropWhile.symm
  have ends : Ends (r.rest.dropWhile isWordByte) := fun c first => by
    have stops := List.head?_dropWhile_not isWordByte r.rest
    rw [first] at stops
    simpa using stops
  split
  · rename_i digits
    exact .token whole (.number isWord (List.all_eq_true.mp digits) ends)
  · rename_i noNumber
    exact .token whole (.word ⟨isWord, fun digits => noNumber (List.all_eq_true.mpr digits)⟩ ends)

/-- A comment goes on to the end of its line. -/
lemma takes_comment {r : Reader} (starts : startsComment r.rest) :
    r.Takes ⟨.comment, [], r.place⟩ (r.skip (r.rest.takeWhile (· != Byte.newline)).length) := by
  refine .comment List.takeWhile_append_dropWhile.symm starts (fun mem => ?_) fun c first => ?_
  · simpa using List.mem_takeWhile_imp mem
  · have stops := List.head?_dropWhile_not (· != Byte.newline) r.rest
    rw [first] at stops
    simpa using stops

/-- **What the next token is,** if there is no white space in front of it. -/
lemma takes_next {r : Reader} {b : UInt8} {tail : Bytes} (left : r.rest = b :: tail)
    (solid : Bytes.isSpace b = false) : r.Takes r.next.1 r.next.2 := by
  unfold next
  split
  case h_1 none => rw [left] at none; cases none
  case h_2 c tail' left' =>
    cases left.symm.trans left'
    split
    case isTrue starts => exact takes_comment starts
    case isFalse noComment =>
      split
      case isTrue quote =>
        cases beq_iff_eq.mp quote
        exact takes_takeString left
      case isFalse noQuote =>
        split
        case isTrue word => exact takes_takeWord left word (by simpa using noComment)
        case isFalse noWord =>
          split
          case isTrue semicolon =>
            cases beq_iff_eq.mp semicolon
            exact .token left .semicolon
          case isFalse noSemicolon =>
            have noHash : b ≠ Byte.hash := by
              rintro rfl
              exact noComment (by rw [left]; rfl)
            have stray : Misfit r.rest [b] := by
              rw [left]
              exact .stray solid (by simpa using noWord) (by simp_all)
            exact .misfit stray

end Reader

/-! ## Whole texts -/

/-- **What a scan makes of a text behind its front:** white space and comments are left out, every token
gets the place where it begins, and the scan goes on up to the end or to a misfit. -/
inductive Laid : (front rest : Bytes) → Scan → Prop
  | finish {front : Bytes} : Laid front [] (.complete [] (.behind front))
  | blank {front blank rest : Bytes} {scan : Scan} (spaces : ∀ b ∈ blank, Bytes.isSpace b)
      (others : Laid (front ++ blank) rest scan) : Laid front (blank ++ rest) scan
  | comment {front comment rest : Bytes} {scan : Scan} (starts : Reader.startsComment (comment ++ rest))
      (oneLine : Byte.newline ∉ comment) (ends : ∀ b, rest.head? = some b → b = Byte.newline)
      (others : Laid (front ++ comment) rest scan) : Laid front (comment ++ rest) scan
  | token {front text rest : Bytes} {kind : TokenKind} {scan : Scan} (lexeme : Lexeme kind text rest)
      (others : Laid (front ++ kind.spell text) rest scan) :
      Laid front (kind.spell text ++ rest) (.cons ⟨kind, text, .behind front⟩ scan)
  | bad {front rest what : Bytes} {stop : Place} (misfit : Misfit rest what) :
      Laid front rest (.failed [] ⟨.invalid, what, .behind front⟩ stop)

namespace Reader

/-- White space is passed byte by byte, and what is left begins with none. -/
lemma exists_skipSpace (r : Reader) : ∃ blank, r.rest = blank ++ r.skipSpace.rest ∧
    (∀ b ∈ blank, Bytes.isSpace b) ∧ r.skipSpace.place = blank.foldl Place.past r.place ∧
    ∀ b, r.skipSpace.rest.head? = some b → Bytes.isSpace b = false := by
  obtain ⟨text, offset, place⟩ := r
  induction text generalizing offset place with
  | nil => exact ⟨[], rfl, by simp, rfl, by simp [skipSpace, skipSpaceFrom]⟩
  | cons b text ih =>
      cases space : Bytes.isSpace b with
      | false =>
          have stays : skipSpace ⟨b :: text, offset, place⟩ = ⟨b :: text, offset, place⟩ := by
            simp [skipSpace, skipSpaceFrom, space]
          rw [stays]
          exact ⟨[], rfl, by simp, rfl, by simpa using space⟩
      | true =>
          have passes : skipSpace ⟨b :: text, offset, place⟩
              = skipSpace ⟨text, offset + 1, place.past b⟩ := by
            simp [skipSpace, skipSpaceFrom, space]
          obtain ⟨blank, left, spaces, placed, solid⟩ := ih (offset + 1) (place.past b)
          rw [passes]
          exact ⟨b :: blank, congrArg (b :: ·) left, List.forall_mem_cons.mpr ⟨space, spaces⟩, placed,
            solid⟩

/-- The white space in front of a token is left out. -/
lemma laid_of_skipSpace {r : Reader} {front : Bytes} {scan : Scan} (placed : r.place = .behind front)
    (others : ∀ front', r.skipSpace.place = .behind front' → Laid front' r.skipSpace.rest scan) :
    Laid front r.rest scan := by
  obtain ⟨blank, left, spaces, here, _⟩ := r.exists_skipSpace
  rw [left]
  refine .blank spaces (others _ ?_)
  rw [here, placed, Place.behind_append]

/-- Where something is left behind white space, the next token is one that can be taken. -/
lemma takes_skipSpace {r : Reader} (some_left : r.skipSpace.rest ≠ []) :
    r.skipSpace.Takes r.skipSpace.next.1 r.skipSpace.next.2 := by
  obtain ⟨_, _, _, _, solid⟩ := r.exists_skipSpace
  obtain ⟨b, tail, left⟩ := List.exists_cons_of_ne_nil some_left
  exact takes_next left (solid b (by rw [left]; rfl))

namespace Takes

variable {r behind : Reader} {token : Token} {front : Bytes} {scan : Scan}

/-- What is passed on one line is in front of what is left. -/
lemma skip_of_append {passed rest : Bytes} (placed : r.place = .behind front)
    (left : r.rest = passed ++ rest) (oneLine : Byte.newline ∉ passed) :
    (r.skip passed.length).rest = rest ∧
      (r.skip passed.length).place = .behind (front ++ passed) := by
  constructor
  · rw [skip, left, List.drop_left]
  · rw [Place.behind_line front oneLine, ← placed]
    rfl

lemma laid_comment (taken : r.Takes token behind) (comment : token.kind = .comment)
    (placed : r.place = .behind front)
    (others : ∀ {front'}, behind.place = .behind front' → Laid front' behind.rest scan) :
    Laid front r.rest scan := by
  cases taken with
  | comment left starts oneLine ends =>
      obtain ⟨rest, here⟩ := skip_of_append placed left oneLine
      have laid := others here
      rw [rest] at laid
      rw [left] at starts ⊢
      exact .comment starts oneLine ends laid
  | token _ lexeme => cases lexeme <;> cases comment
  | misfit _ => cases comment

lemma laid_token (taken : r.Takes token behind) (valid : token.kind ≠ .invalid)
    (listed : token.kind ≠ .comment) (placed : r.place = .behind front)
    (others : ∀ {front'}, behind.place = .behind front' → Laid front' behind.rest scan) :
    Laid front r.rest (.cons token scan) := by
  cases taken with
  | comment _ _ _ _ => exact absurd rfl listed
  | token left lexeme =>
      obtain ⟨rest, here⟩ := skip_of_append placed left lexeme.oneLine
      have laid := others here
      rw [rest] at laid
      rw [left, placed]
      exact .token lexeme laid
  | misfit _ => exact absurd rfl valid

lemma laid_misfit (taken : r.Takes token behind) (invalid : token.kind = .invalid)
    (placed : r.place = .behind front) (stop : Place) : Laid front r.rest (.failed [] token stop) := by
  cases taken with
  | comment _ _ _ _ => cases invalid
  | token _ lexeme => cases lexeme <;> cases invalid
  | misfit misfit =>
      rw [placed]
      exact .bad misfit

end Takes

/-- **A scan is laid out in its text.**  The reader only has to begin at the place that it is told. -/
lemma laid_scan {r : Reader} {front : Bytes} (placed : r.place = .behind front) :
    Laid front r.rest r.scan := by
  fun_induction Reader.scan r generalizing front with
  | case1 r none =>
      refine laid_of_skipSpace placed fun front' here => ?_
      rw [none, here]
      exact .finish
  | case2 r some_left token =>
      rename_i invalid
      exact laid_of_skipSpace placed fun _ here => (takes_skipSpace some_left).laid_misfit invalid here _
  | case3 r some_left token =>
      rename_i valid comment ih
      exact laid_of_skipSpace placed fun _ here => (takes_skipSpace some_left).laid_comment comment here ih
  | case4 r some_left token =>
      rename_i valid listed ih
      exact laid_of_skipSpace placed fun _ here =>
        (takes_skipSpace some_left).laid_token valid listed here ih

end Reader

lemma laid_scan (text : Bytes) : Laid [] text (scan text) :=
  Reader.laid_scan (r := { rest := text }) Place.behind_nil.symm

/-! ## Tokens in their text -/

/-- The tokens of a scan, and behind them the end or the bad token. -/
def Scan.marks : Scan → List Token
  | complete tokens finish => tokens ++ [⟨.finish, [], finish⟩]
  | failed tokens bad _ => tokens ++ [bad]

lemma Scan.marks_cons (token : Token) (scan : Scan) :
    (Scan.cons token scan).marks = token :: scan.marks := by
  cases scan <;> rfl

/-- **A token begins here:** it is spelled, or nothing is left and it is the end, or nothing can be read
and it tells what. -/
inductive Token.Begins : TokenKind → (text rest : Bytes) → Prop
  | lexeme {kind : TokenKind} {text rest : Bytes} (lexeme : Lexeme kind text rest) :
      Begins kind text (kind.spell text ++ rest)
  | finish : Begins .finish [] []
  | misfit {what rest : Bytes} (misfit : Misfit rest what) : Begins .invalid what rest

/-- **A token stands where it says** in a text: it begins there, and its place is that behind what is in
front of it. -/
def Token.StandsIn (token : Token) (text : Bytes) : Prop :=
  ∃ front rest, text = front ++ rest ∧ token.place = .behind front ∧ Begins token.kind token.text rest

namespace Laid

variable {front rest : Bytes} {scan : Scan}

/-- Every mark of a scan has a place behind the front. -/
lemma exists_more (laid : Laid front rest scan) :
    ∀ token ∈ scan.marks, ∃ more, token.place = .behind (front ++ more) := by
  induction laid with
  | finish => simpa [Scan.marks] using ⟨[], by simp⟩
  | blank _ _ ih | comment _ _ _ _ ih =>
      intro token mem
      obtain ⟨more, place⟩ := ih token mem
      exact ⟨_, by rw [place, List.append_assoc]⟩
  | token _ _ ih =>
      rw [Scan.marks_cons]
      refine List.forall_mem_cons.mpr ⟨⟨[], by simp⟩, fun token mem => ?_⟩
      obtain ⟨more, place⟩ := ih token mem
      exact ⟨_, by rw [place, List.append_assoc]⟩
  | bad _ => simpa [Scan.marks] using ⟨[], by simp⟩

/-- **The marks of a scan stand in the text where they say.** -/
lemma standsIn (laid : Laid front rest scan) :
    ∀ token ∈ scan.marks, token.StandsIn (front ++ rest) := by
  induction laid with
  | finish =>
      intro token mem
      cases List.mem_singleton.mp mem
      exact ⟨_, [], rfl, rfl, .finish⟩
  | blank _ _ ih | comment _ _ _ _ ih =>
      rw [← List.append_assoc]
      exact ih
  | token lexeme _ ih =>
      rw [Scan.marks_cons]
      refine List.forall_mem_cons.mpr ⟨⟨_, _, rfl, rfl, .lexeme lexeme⟩, ?_⟩
      rw [← List.append_assoc]
      exact ih
  | bad misfit =>
      intro token mem
      cases List.mem_singleton.mp mem
      exact ⟨_, _, rfl, rfl, .misfit misfit⟩

/-- **The marks of a scan are in the order of their places.**  Every token takes something, so the next
one begins further on. -/
lemma pairwise (laid : Laid front rest scan) : scan.marks.Pairwise (·.place < ·.place) := by
  induction laid with
  | finish => simp [Scan.marks]
  | blank _ _ ih | comment _ _ _ _ ih => exact ih
  | token lexeme others ih =>
      rw [Scan.marks_cons]
      refine List.pairwise_cons.mpr ⟨fun token mem => ?_, ih⟩
      obtain ⟨more, place⟩ := others.exists_more token mem
      rw [place, List.append_assoc]
      exact Place.behind_lt _ (List.append_ne_nil_of_left_ne_nil lexeme.spell_ne_nil more)
  | bad _ => simp [Scan.marks]

/-- A scan that fails does so by a token that is told to be a bad one. -/
lemma kind_of_failed {tokens : List Token} {bad : Token} {stop : Place}
    (laid : Laid front rest (.failed tokens bad stop)) : bad.kind = .invalid := by
  generalize same : Scan.failed tokens bad stop = scan at laid
  induction laid generalizing tokens with
  | finish => cases same
  | blank _ _ ih | comment _ _ _ _ ih => exact ih same
  | @token _ _ _ _ scan _ _ ih =>
      cases scan with
      | complete => cases same
      | failed => cases same; exact ih rfl
  | bad _ => cases same; rfl

end Laid

end Settings

end ClauseRouter
