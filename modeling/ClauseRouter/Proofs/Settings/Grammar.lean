import Mathlib.Tactic.Lemma
import ClauseRouter.Fault

/-!
# The grammar of settings texts

What token lists are read as directives, told without the reader: a directive is a key that is a word,
one or more values, and a semicolon.

* `Directives tokens entries` — a token list is a sequence of directives, which say these entries.
* `Settings.Grammatical text entries` — a text falls into such tokens.
* `Directive.read_eq_ok_iff` — the reader takes exactly these token lists, and gives what they say.
* `Settings.entriesOf_eq_ok_iff` — so a text has entries exactly if it is grammatical.
-/

namespace ClauseRouter.Settings

/-- **A sequence of directives,** with the key of each and the text of its values. -/
inductive Directives : List Token → List (Bytes × Bytes) → Prop
  | none : Directives [] []
  | more {key semicolon : Token} {values rest : List Token} {entries : List (Bytes × Bytes)}
      (isKey : key.kind = .word) (some_value : values ≠ []) (areValues : ∀ v ∈ values, v.isValue)
      (ends : semicolon.kind = .semicolon) (others : Directives rest entries) :
      Directives (key :: (values ++ semicolon :: rest))
        ((key.text, Directive.joined (values.map Token.text)) :: entries)

/-- **A grammatical text:** its tokens, comments left out, are directives that say these entries. -/
def Grammatical (text : Bytes) (entries : List (Bytes × Bytes)) : Prop :=
  ∃ tokens finish, scan text = .complete tokens finish ∧ Directives tokens entries

namespace Directive

variable {finish : Place} {entries : List (Bytes × Bytes)}

/-- What a token list may go on with behind a key and some of its values. -/
def Continues (key : Token) (values : List Bytes) (tokens : List Token)
    (entries : List (Bytes × Bytes)) : Prop :=
  ∃ more semicolon rest others, tokens = more ++ semicolon :: rest ∧ (∀ v ∈ more, v.isValue) ∧
    semicolon.kind = .semicolon ∧ values ++ more.map Token.text ≠ [] ∧ Directives rest others ∧
    entries = (key.text, joined (values ++ more.map Token.text)) :: others

/-- A list of directives begins with a key, which its values follow. -/
lemma directives_cons_iff {token : Token} {rest : List Token} :
    Directives (token :: rest) entries ↔ token.kind = .word ∧ Continues token [] rest entries := by
  constructor
  · intro h
    cases h with
    | more isKey some_value areValues ends others =>
        exact ⟨isKey, _, _, _, _, rfl, areValues, ends, by simpa using some_value, others, rfl⟩
  · rintro ⟨isKey, more, semicolon, rest, others, rfl, areValues, ends, some_value, directives, rfl⟩
    exact .more isKey (by simpa using some_value) areValues ends directives

lemma not_continues_nil {key : Token} {values : List Bytes} : ¬ Continues key values [] entries := by
  rintro ⟨more, semicolon, rest, others, same, -⟩
  simp at same

/-- A value behind a key is the next one of its values. -/
lemma continues_value_iff {key token : Token} {values : List Bytes} {rest : List Token}
    (value : token.isValue) :
    Continues key values (token :: rest) entries
      ↔ Continues key (values ++ [token.text]) rest entries := by
  constructor
  · rintro ⟨more, semicolon, behind, others, same, areValues, ends, -, directives, rfl⟩
    cases more with
    | nil =>
        -- a semicolon is no value
        obtain ⟨rfl, rfl⟩ := List.cons.inj same
        rw [Token.isValue, ends] at value
        cases value
    | cons first more =>
        obtain ⟨rfl, rfl⟩ := List.cons.inj same
        exact ⟨more, semicolon, behind, others, rfl, (List.forall_mem_cons.mp areValues).2, ends,
          by simp, directives, by simp⟩
  · rintro ⟨more, semicolon, behind, others, rfl, areValues, ends, -, directives, rfl⟩
    exact ⟨token :: more, semicolon, behind, others, rfl,
      List.forall_mem_cons.mpr ⟨value, areValues⟩, ends, by simp, directives, by simp⟩

/-- What is no value ends the directive, and has to be a semicolon behind at least one value. -/
lemma continues_end_iff {key token : Token} {values : List Bytes} {rest : List Token}
    (noValue : token.isValue = false) :
    Continues key values (token :: rest) entries
      ↔ token.kind = .semicolon ∧ values ≠ [] ∧
        ∃ others, Directives rest others ∧ entries = (key.text, joined values) :: others := by
  constructor
  · rintro ⟨more, semicolon, behind, others, same, areValues, ends, some_value, directives, rfl⟩
    cases more with
    | nil =>
        obtain ⟨rfl, rfl⟩ := List.cons.inj same
        exact ⟨ends, by simpa using some_value, others, directives, by simp⟩
    | cons first more =>
        obtain ⟨rfl, rfl⟩ := List.cons.inj same
        rw [areValues token List.mem_cons_self] at noValue
        cases noValue
  · rintro ⟨ends, some_value, others, directives, rfl⟩
    exact ⟨[], token, rest, others, rfl, by simp, ends, by simpa using some_value, directives, by simp⟩

mutual

/-- **The reader takes sequences of directives,** and nothing else. -/
lemma read_eq_ok_iff {entries : List (Bytes × Bytes)} :
    ∀ {tokens : List Token}, read finish tokens = .ok entries ↔ Directives tokens entries
  | [] => by
      rw [read]
      constructor
      · rintro ⟨⟩
        exact .none
      · intro h
        cases h
        rfl
  | token :: rest => by
      rw [read, directives_cons_iff]
      by_cases word : token.kind = .word
      · simp only [word, beq_self_eq_true, if_true, true_and]
        exact readValues_eq_ok_iff
      · simp [word]

/-- So does the reader behind a key and some of its values. -/
lemma readValues_eq_ok_iff {key : Token} {values : List Bytes} {entries : List (Bytes × Bytes)} :
    ∀ {tokens : List Token}, readValues finish key values tokens = .ok entries
      ↔ Continues key values tokens entries
  | [] => by simp [readValues, not_continues_nil]
  | token :: rest => by
      rw [readValues]
      cases value : token.isValue with
      | true =>
          rw [if_pos rfl, continues_value_iff value]
          exact readValues_eq_ok_iff
      | false =>
          rw [if_neg (by simp), continues_end_iff value]
          by_cases semicolon : token.kind = .semicolon
          · by_cases empty : values = []
            · simp [semicolon, empty]
            · have behind (others : List (Bytes × Bytes)) :
                  read finish rest = .ok others ↔ Directives rest others := read_eq_ok_iff
              simp only [semicolon, bne_self_eq_false, Bool.false_eq_true, if_false,
                List.isEmpty_iff, empty, Except.bind_eq_ok, behind, true_and, ne_eq,
                not_false_eq_true]
              exact exists_congr fun others => and_congr_right fun _ =>
                ⟨fun same => (Except.ok.inj same).symm, fun same => congrArg Except.ok same.symm⟩
          · simp [semicolon]

end

end Directive

/-- **A text has exactly the entries that its directives say.** -/
lemma entriesOf_eq_ok_iff {text : Bytes} {entries : List (Bytes × Bytes)} :
    entriesOf text = .ok entries ↔ Grammatical text entries := by
  rw [entriesOf, Grammatical]
  cases scan text with
  | failed before bad behind => simp
  | complete tokens finish =>
      have read : Directive.read finish tokens = .ok entries ↔ Directives tokens entries :=
        Directive.read_eq_ok_iff
      cases made : Directive.read finish tokens with
      | error error => simp [← read, made]
      | ok found => simpa [made] using read

end ClauseRouter.Settings
