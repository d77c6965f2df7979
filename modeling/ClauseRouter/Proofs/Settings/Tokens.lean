import ClauseRouter.Proofs.Bytes
import ClauseRouter.Settings.Basic

/-!
# Words and strings of a settings text

What can be written as a word or as a string is read back from there, and nothing else is ever read.

* `Settings.IsWord`, `Settings.IsKey`, `Settings.IsValue` — what words, keys and the contents of strings
  are.
* `Settings.quoted` — the spelling of a string.
* `Reader.next_word`, `Reader.next_quoted` — a word and a quoted string are read as one token, if what
  stands behind them does not belong to them.
* `Reader.shaped_scan` — every token that is read is a word or the content of a string, by its kind.

A string cannot hold a newline and cannot end with a backslash, which would take the closing quote
for a part of the string.
-/

namespace ClauseRouter

namespace Settings

/-! ## Words and strings -/

/-- Bytes that are read as one word, or as a number. -/
structure IsWord (word : Bytes) : Prop where
  nonempty : word ≠ []
  bytes : ∀ b ∈ word, isWordByte b
  /-- Two slashes start a comment. -/
  noComment : ¬ [Byte.slash, Byte.slash] <+: word

/-- A word that is no number. -/
structure IsKey (key : Bytes) : Prop extends IsWord key where
  noNumber : ¬ ∀ b ∈ key, Bytes.isDigit b

/-- Bytes that can be the content of a string. -/
structure IsValue (value : Bytes) : Prop where
  oneLine : Byte.newline ∉ value
  /-- A backslash in front of the closing quote would make it a part of the string. -/
  closed : value.getLast? ≠ some Byte.backslash

instance (word : Bytes) : Decidable (IsWord word) :=
  decidable_of_iff (word ≠ [] ∧ word.all isWordByte ∧ ¬ [Byte.slash, Byte.slash] <+: word)
    ⟨fun ⟨nonempty, bytes, noComment⟩ => ⟨nonempty, List.all_eq_true.mp bytes, noComment⟩,
      fun h => ⟨h.nonempty, List.all_eq_true.mpr h.bytes, h.noComment⟩⟩

instance (key : Bytes) : Decidable (IsKey key) :=
  decidable_of_iff (IsWord key ∧ ¬ key.all Bytes.isDigit)
    ⟨fun ⟨isWord, noNumber⟩ => ⟨isWord, fun digits => noNumber (List.all_eq_true.mpr digits)⟩,
      fun h => ⟨h.toIsWord, fun digits => h.noNumber (List.all_eq_true.mp digits)⟩⟩

instance (value : Bytes) : Decidable (IsValue value) :=
  decidable_of_iff (Byte.newline ∉ value ∧ value.getLast? ≠ some Byte.backslash)
    ⟨fun ⟨oneLine, closed⟩ => ⟨oneLine, closed⟩, fun h => ⟨h.oneLine, h.closed⟩⟩

/-- The content of a string as it is spelled: with a backslash in front of every quote. -/
def escaped : Bytes → Bytes
  | [] => []
  | b :: rest =>
    if b = Byte.quote then Byte.backslash :: Byte.quote :: escaped rest else b :: escaped rest

/-- A string as it is spelled. -/
def quoted (value : Bytes) : Bytes := Byte.quote :: escaped value ++ [Byte.quote]

lemma isWordByte_elsewhere {b : UInt8} (h : isWordByte b) :
    Bytes.isSpace b = false ∧ b ≠ Byte.newline ∧ b ≠ Byte.backslash ∧ b ≠ Byte.quote ∧
      b ≠ Byte.hash := by
  revert h
  exact Bytes.forall_byte (p := fun b => isWordByte b → Bytes.isSpace b = false ∧ b ≠ Byte.newline ∧
    b ≠ Byte.backslash ∧ b ≠ Byte.quote ∧ b ≠ Byte.hash) (by decide +kernel) b

lemma IsWord.isValue {word : Bytes} (h : IsWord word) : IsValue word := by
  refine ⟨fun mem => ?_, fun last => ?_⟩
  · exact (isWordByte_elsewhere (h.bytes _ mem)).2.1 rfl
  · exact (isWordByte_elsewhere (h.bytes _ (List.mem_of_getLast? last))).2.2.1 rfl

lemma IsValue.of_cons {b : UInt8} {value : Bytes} (h : IsValue (b :: value)) : IsValue value := by
  refine ⟨fun mem => h.oneLine (List.mem_cons_of_mem _ mem), fun last => h.closed ?_⟩
  rw [List.getLast?_cons, last]
  rfl

lemma IsValue.cons {b : UInt8} {value : Bytes} (h : IsValue value) (line : b ≠ Byte.newline)
    (last : value = [] → b ≠ Byte.backslash) : IsValue (b :: value) := by
  refine ⟨by simpa [Ne.symm line] using h.oneLine, ?_⟩
  cases value with
  | nil => simpa using last rfl
  | cons c value => rw [List.getLast?_cons_cons]; exact h.closed

lemma IsValue.append {front value : Bytes} (first : IsValue front) (second : IsValue value) :
    IsValue (front ++ value) := by
  refine ⟨by simpa using ⟨first.oneLine, second.oneLine⟩, ?_⟩
  rw [List.getLast?_append]
  cases last : value.getLast? with
  | none => exact first.closed
  | some b =>
      have closed := second.closed
      rwa [last] at closed

/-- No quote comes first in what is spelled. -/
lemma head?_escaped (value rest : Bytes) (nonempty : value ≠ []) :
    (escaped value ++ rest).head? ≠ some Byte.quote := by
  cases value with
  | nil => exact absurd rfl nonempty
  | cons b value =>
      rw [escaped]
      split
      · exact fun same => absurd (Option.some.inj same) (by decide)
      · rename_i other
        simpa using other

namespace Reader

/-! ## What is read from a spelling -/

lemma stringContent_quote (rest : Bytes) : stringContent (Byte.quote :: rest) = ([], 0) := rfl

lemma stringContent_escape (rest : Bytes) :
    stringContent (Byte.backslash :: Byte.quote :: rest)
      = (Byte.quote :: (stringContent rest).1, (stringContent rest).2 + 2) := rfl

lemma stringContent_cons {b : UInt8} {rest : Bytes} (quote : b ≠ Byte.quote)
    (line : b ≠ Byte.newline) (escape : b = Byte.backslash → rest.head? ≠ some Byte.quote) :
    stringContent (b :: rest) = (b :: (stringContent rest).1, (stringContent rest).2 + 1) := by
  rw [stringContent]
  · simp [quote, line]
  · rintro tail rfl rfl
    exact escape rfl rfl

/-- The spelling of a string is read up to the quote behind it. -/
lemma stringContent_escaped {value : Bytes} (h : IsValue value) (rest : Bytes) :
    stringContent (escaped value ++ Byte.quote :: rest) = (value, (escaped value).length) := by
  induction value with
  | nil => exact stringContent_quote rest
  | cons b value ih =>
      have inner := ih h.of_cons
      rw [escaped]
      split
      case isTrue same =>
        subst same
        rw [List.cons_append, List.cons_append, stringContent_escape, inner]
        rfl
      case isFalse other =>
        have line : b ≠ Byte.newline := fun same => h.oneLine (by simp [same])
        have escape : b = Byte.backslash →
            (escaped value ++ Byte.quote :: rest).head? ≠ some Byte.quote := by
          rintro rfl
          refine head?_escaped value _ ?_
          rintro rfl
          exact h.closed rfl
        rw [List.cons_append, stringContent_cons other line escape, inner]
        rfl

/-- **A quoted string is read as one token.** -/
lemma next_quoted {r : Reader} {value rest : Bytes} (h : IsValue value)
    (front : r.rest = quoted value ++ rest) :
    r.next = (⟨.string, value, r.place⟩, r.skip (quoted value).length) := by
  obtain ⟨text, offset, place⟩ := r
  cases front
  have content : stringContent ((quoted value ++ rest).drop 1) = (value, (escaped value).length) := by
    have spelled := stringContent_escaped h rest
    simpa [quoted] using spelled
  have closing : ((quoted value ++ rest).drop ((escaped value).length + 1)).head?
      = some Byte.quote := by
    simp [quoted]
  have taken : takeString ⟨quoted value ++ rest, offset, place⟩
      = (⟨.string, value, place⟩, skip ⟨quoted value ++ rest, offset, place⟩
          (quoted value).length) := by
    rw [takeString, content]
    dsimp only [skip]
    rw [if_pos closing, List.drop_drop, Nat.add_assoc]
    simp [quoted, Place.right, Nat.add_assoc]
  exact taken

/-- A word is no comment, whatever stands behind it. -/
lemma startsComment_word {word rest : Bytes} (h : IsWord word)
    (ends : ∀ b, rest.head? = some b → isWordByte b = false) :
    startsComment (word ++ rest) = false := by
  obtain ⟨b, word, rfl⟩ := List.exists_cons_of_ne_nil h.nonempty
  have hash : b ≠ Byte.hash := (isWordByte_elsewhere (h.bytes b List.mem_cons_self)).2.2.2.2
  -- a second slash is in the word itself: none can stand behind it
  have slash : b = Byte.slash → (word ++ rest).head? ≠ some Byte.slash := by
    rintro rfl first
    cases word with
    | nil => exact absurd (ends _ first) (by decide)
    | cons c word =>
        obtain rfl : c = Byte.slash := by simpa using first
        exact h.noComment ⟨word, rfl⟩
  unfold startsComment
  split
  · rename_i same; cases same; exact absurd rfl hash
  · rename_i same
    obtain ⟨rfl, behind⟩ := List.cons.inj same
    exact absurd (congrArg List.head? behind) (slash rfl)
  · rfl

/-- **A word is read as one token** if what stands behind it does not go on with it. -/
lemma next_word {r : Reader} {word rest : Bytes} (h : IsWord word)
    (ends : ∀ b, rest.head? = some b → isWordByte b = false) (front : r.rest = word ++ rest) :
    r.next = (⟨if word.all Bytes.isDigit then .number else .word, word, r.place⟩,
      r.skip word.length) := by
  have taken : (word ++ rest).takeWhile isWordByte = word := by
    rw [List.takeWhile_append_of_pos h.bytes]
    cases rest with
    | nil => simp
    | cons c rest => simp [ends c rfl]
  have noComment := startsComment_word h ends
  obtain ⟨b, tail, rfl⟩ := List.exists_cons_of_ne_nil h.nonempty
  have first := h.bytes b List.mem_cons_self
  have quote : b ≠ Byte.quote := (isWordByte_elsewhere first).2.2.2.1
  obtain ⟨text, offset, place⟩ := r
  cases front
  simp only [next, List.cons_append, takeWord] at taken noComment ⊢
  simp [noComment, quote, first, taken]

lemma next_semicolon {r : Reader} {rest : Bytes} (front : r.rest = Byte.semicolon :: rest) :
    r.next = (⟨.semicolon, [Byte.semicolon], r.place⟩, r.skip 1) := by
  obtain ⟨text, offset, place⟩ := r
  cases front
  rfl

/-! ## The kinds of tokens -/

/-- Where nothing is taken into a string, nothing spells it. -/
lemma length_stringContent (text : Bytes) :
    (stringContent text).1 = [] → (stringContent text).2 = 0 := by
  fun_cases stringContent text with
  | case1 => exact fun _ => rfl
  | case2 => exact nofun
  | case3 => exact fun _ => rfl
  | case4 => exact nofun

/-- A string that is closed holds no newline, and no backslash stands in front of the quote. -/
lemma isValue_stringContent (text : Bytes)
    (closed : (text.drop (stringContent text).2).head? = some Byte.quote) :
    IsValue (stringContent text).1 := by
  fun_induction stringContent text with
  | case1 => exact ⟨by simp, by simp⟩
  | case2 rest content length same ih =>
      rw [same] at ih
      exact (ih closed).cons (by decide) fun _ => by decide
  | case3 b rest escape ends => exact ⟨by simp, by simp⟩
  | case4 b rest escape goesOn content length same ih =>
      rw [same] at ih
      obtain ⟨quote, line⟩ : b ≠ Byte.quote ∧ b ≠ Byte.newline := by simpa using goesOn
      refine (ih closed).cons line fun empty => ?_
      rintro rfl
      -- where nothing comes between them, a backslash takes the quote into the string
      have none_taken : length = 0 := by
        have counted := length_stringContent rest (by rw [same]; exact empty)
        rwa [same] at counted
      subst none_taken
      obtain ⟨tail, rfl⟩ := List.head?_eq_some_iff.mp closed
      exact escape tail rfl rfl

end Reader

/-- A token by its kind: words, numbers and strings are what they should be. -/
structure Token.Shaped (token : Token) : Prop where
  key : token.kind = .word → IsKey token.text
  value : token.isValue → IsValue token.text

namespace Reader

lemma shaped_of_not_value {token : Token} (h : token.isValue = false) : token.Shaped := by
  refine ⟨fun word => ?_, fun value => ?_⟩
  · rw [Token.isValue, word] at h
    cases h
  · rw [value] at h
    cases h

/-- A string that is closed is what a string should be. -/
lemma shaped_takeString (r : Reader) : r.takeString.1.Shaped := by
  rw [takeString]
  dsimp only
  split
  · rename_i closed
    refine ⟨by simp, fun _ => isValue_stringContent _ ?_⟩
    simpa [skip, Nat.add_comm] using closed
  · exact shaped_of_not_value rfl

/-- Where a word byte comes and no comment starts, a word is taken. -/
lemma isWord_takeWord {r : Reader} {b : UInt8} {tail : Bytes} (front : r.rest = b :: tail)
    (word : isWordByte b) (noComment : startsComment r.rest = false) : IsWord r.takeWord.1 := by
  have taken : r.takeWord.1 = b :: tail.takeWhile isWordByte := by
    rw [takeWord, front, List.takeWhile_cons, if_pos word]
  refine ⟨by simp [taken], List.all_eq_true.mp List.all_takeWhile, fun slashes => ?_⟩
  obtain ⟨behind, same⟩ := slashes.trans (List.takeWhile_prefix _)
  rw [← same] at noComment
  cases noComment

lemma shaped_next (r : Reader) : r.next.1.Shaped := by
  unfold next
  split
  · exact shaped_of_not_value rfl
  · rename_i b tail front
    split
    · exact shaped_of_not_value rfl
    · rename_i noComment
      split
      · exact shaped_takeString r
      · split
        · rename_i word
          have isWord := isWord_takeWord front word (by simpa using noComment)
          refine ⟨fun kind => ⟨isWord, fun digits => ?_⟩, fun _ => isWord.isValue⟩
          -- a word of digits only would be a number
          dsimp only at kind
          rw [if_pos (List.all_eq_true.mpr digits)] at kind
          cases kind
        · split <;> exact shaped_of_not_value rfl

/-- **Every token that is read has its shape.** -/
lemma shaped_scan {r : Reader} {tokens : List Token} {finish : Place}
    (h : r.scan = .complete tokens finish) : ∀ token ∈ tokens, token.Shaped := by
  fun_induction Reader.scan r generalizing tokens finish with
  | case1 r none =>
      obtain ⟨rfl, -⟩ := Scan.complete.inj h
      simp
  | case2 => cases h
  | case3 =>
      rename_i ih
      exact ih h
  | case4 r =>
      rename_i ih
      cases behind : r.skipSpace.next.2.scan with
      | failed => rw [behind] at h; cases h
      | complete others stop =>
          rw [behind] at h
          obtain ⟨rfl, -⟩ := Scan.complete.inj h
          exact List.forall_mem_cons.mpr ⟨shaped_next _, ih behind⟩

end Reader

end Settings

end ClauseRouter
