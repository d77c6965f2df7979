import Mathlib.Data.Nat.Digits.Lemmas
import ClauseRouter.Proofs.Bytes
import ClauseRouter.Proofs.Bytes.Decimal
import ClauseRouter.Settings.Basic

/-!
# Numbers in settings

A number in the settings is one to nine decimal digits.  Nine digits are as many as a word of 32 bits with
a sign takes whatever they are, so reading a number digit by digit into such a word never leaves it.

* `Settings.IsNumeral` — the texts that are numbers, with the number in base 10 that each stands for.
* `Decimal.word?_eq_some_iff` — a word has a result exactly if the number fits.
* `Settings.toNumber_eq_ok_iff` — what is read as a number are the numerals, each as its number.
* `Settings.toNumber_numerals` — no other text is read, no word overflows, and numbers that are written
  out are read back up to nine digits.
-/

namespace ClauseRouter

namespace Decimal

/-! ## The value of digits -/

lemma value_concat (digits : Bytes) (digit : UInt8) :
    value (digits ++ [digit]) = 10 * value digits + digitValue digit := by
  rw [value, List.foldl_append]
  rfl

/-- **The value of digits is their number in base 10,** the last digit being the lowest. -/
lemma value_eq_ofDigits (digits : Bytes) :
    value digits = Nat.ofDigits 10 (digits.reverse.map digitValue) := by
  induction digits using List.reverseRecOn with
  | nil => rfl
  | append_singleton digits digit ih =>
      rw [value_concat, ih, List.reverse_append, List.reverse_singleton, List.singleton_append,
        List.map_cons, Nat.ofDigits_cons]
      exact Nat.add_comm _ _

lemma digitValue_lt {digit : UInt8} (isDigit : Bytes.isDigit digit = true) : digitValue digit < 10 := by
  revert isDigit
  exact Bytes.forall_byte (p := fun b => Bytes.isDigit b = true → digitValue b < 10)
    (by decide +kernel) digit

/-- Digits stand for less than the power of ten of their number. -/
lemma value_lt {digits : Bytes} (areDigits : ∀ b ∈ digits, Bytes.isDigit b = true) :
    value digits < 10 ^ digits.length := by
  have below : ∀ n ∈ digits.reverse.map digitValue, n < 10 := by
    intro n mem
    obtain ⟨b, among, rfl⟩ := List.mem_map.mp mem
    exact digitValue_lt (areDigits b (List.mem_reverse.mp among))
  have bound := Nat.ofDigits_lt_base_pow_length (by decide) below
  rwa [← value_eq_ofDigits, List.length_map, List.length_reverse] at bound

/-- **A number of digits is enough** for the numbers below that power of ten. -/
lemma length_natural_le_iff {n k : Nat} (positive : 0 < k) : (natural n).length ≤ k ↔ n < 10 ^ k := by
  rw [natural, List.length_map]
  exact Nat.length_toDigits_le_iff (by decide) positive

/-! ## Reading into a word -/

lemma takeDigit?_eq_some_iff {total word : Int32} {digit : UInt8} :
    takeDigit? total digit = some word ↔ word.toInt = 10 * total.toInt + digitValue digit := by
  rw [takeDigit?]
  constructor
  · intro taken
    split at taken
    case isTrue held => rwa [Option.some.inj taken] at held
    case isFalse => cases taken
  · intro same
    rw [← same, Int32.ofInt_toInt, if_pos rfl]

lemma word?_concat (digits : Bytes) (digit : UInt8) :
    word? (digits ++ [digit]) = (word? digits).bind fun total => takeDigit? total digit := by
  simp only [word?, List.foldlM_append, List.foldlM_cons, List.foldlM_nil, bind_pure]
  rfl

/-- **Digits are read into a word exactly if their number fits,** and it is what the word then holds. -/
lemma word?_eq_some_iff {digits : Bytes} {word : Int32} :
    word? digits = some word ↔ word.toInt = value digits := by
  induction digits using List.reverseRecOn generalizing word with
  | nil =>
      have start : word? [] = some 0 := rfl
      rw [start, Option.some.injEq, ← Int32.toInt_inj, eq_comm]
      rfl
  | append_singleton digits digit ih =>
      rw [word?_concat, Option.bind_eq_some_iff, value_concat]
      simp only [takeDigit?_eq_some_iff, ih]
      constructor
      · rintro ⟨total, read, next⟩
        rw [next, read]
        push_cast
        rfl
      · intro same
        -- what was read before is not greater than what is read in the end, so it fits as well
        have fits : value digits < 2 ^ 31 := by
          have below := word.toInt_lt
          omega
        have before := Int32.toInt_ofNat_of_lt fits
        refine ⟨Int32.ofNat (value digits), before, ?_⟩
        rw [same, before]
        push_cast
        rfl

end Decimal

namespace Settings

/-- **A numeral:** one to nine digits, and the number that they stand for in base 10. -/
structure IsNumeral (text : Bytes) (n : Nat) : Prop where
  some_digit : 1 ≤ text.length
  few : text.length ≤ 9
  areDigits : ∀ b ∈ text, Bytes.isDigit b = true
  number : Nat.ofDigits 10 (text.reverse.map Decimal.digitValue) = n

variable {text : Bytes} {n : Nat}

/-- Digits are a number if they are not too many. -/
lemma toNumber_of_digits (some_digit : 1 ≤ text.length)
    (areDigits : ∀ b ∈ text, Bytes.isDigit b = true) :
    toNumber text
      = if text.length ≤ 9 then .ok (Decimal.value text) else .error (.numberTooLarge text) := by
  have filled : text.isEmpty = false := List.isEmpty_eq_false_iff.mpr (List.length_pos_iff.mp some_digit)
  have digits : text.all Bytes.isDigit = true := List.all_eq_true.mpr areDigits
  rw [toNumber, filled, digits]
  by_cases few : text.length ≤ 9
  · simp [few, digitLimit]
  · simp [few, digitLimit, Nat.lt_of_not_le few]

/-- **What is read as a number are the numerals,** each as the number it stands for. -/
lemma toNumber_eq_ok_iff : toNumber text = .ok n ↔ IsNumeral text n := by
  constructor
  · intro read
    rw [toNumber] at read
    split_ifs at read with empty foreign long
    have digits : text.all Bytes.isDigit = true := by simpa using foreign
    refine ⟨List.length_pos_iff.mpr fun none => empty (by rw [none]; rfl), Nat.le_of_not_gt long,
      List.all_eq_true.mp digits, ?_⟩
    rw [← Decimal.value_eq_ofDigits]
    exact Except.ok.inj read
  · rintro ⟨some_digit, few, areDigits, rfl⟩
    rw [toNumber_of_digits some_digit areDigits, if_pos few, Decimal.value_eq_ofDigits]

/-- A number that is written out is read back, if nine digits are enough for it. -/
lemma toNumber_natural (n : Nat) :
    toNumber (Decimal.natural n)
      = if n < 10 ^ 9 then .ok n else .error (.numberTooLarge (Decimal.natural n)) := by
  rw [toNumber_of_digits (Decimal.length_natural_pos n) fun _ mem => Decimal.isDigit_of_mem_natural mem,
    Decimal.value_natural]
  simp only [Decimal.length_natural_le_iff (show 0 < 9 by decide)]

lemma IsNumeral.lt (numeral : IsNumeral text n) : n < 10 ^ 9 := by
  have bound := Decimal.value_lt numeral.areDigits
  rw [Decimal.value_eq_ofDigits, numeral.number] at bound
  exact bound.trans_le (Nat.pow_le_pow_right (by decide) numeral.few)

/-- A numeral is read into a word without leaving it. -/
lemma IsNumeral.word (numeral : IsNumeral text n) :
    ∃ word, Decimal.word? text = some word ∧ word.toInt = n := by
  have fits : n < 2 ^ 31 := numeral.lt.trans (by decide)
  have held := Int32.toInt_ofNat_of_lt fits
  refine ⟨Int32.ofNat n, Decimal.word?_eq_some_iff.mpr ?_, held⟩
  rw [held, Decimal.value_eq_ofDigits, numeral.number]

/-- **Numbers in settings.**  A text is read as a number exactly if it is a numeral, and otherwise there is
an error.  Every numeral is a number below `10 ^ 9`, and reading its digits one by one never leaves a word
of 32 bits with a sign.  A number that is written out is read back exactly if it is below `10 ^ 9`; a
larger one is an error. -/
theorem toNumber_numerals :
    (∀ text n, toNumber text = .ok n ↔ IsNumeral text n) ∧
    (∀ text, (∀ n, ¬ IsNumeral text n) → ∃ error, toNumber text = .error error) ∧
    (∀ text n, IsNumeral text n →
      n ≤ 999999999 ∧ ∃ word, Decimal.word? text = some word ∧ word.toInt = n) ∧
    (∀ n : UInt64, toNumber (Decimal.natural n.toNat)
      = if n.toNat < 10 ^ 9 then .ok n.toNat
        else .error (.numberTooLarge (Decimal.natural n.toNat))) := by
  refine ⟨fun _ _ => toNumber_eq_ok_iff, fun text foreign => ?_, fun text n numeral => ?_,
    fun n => toNumber_natural n.toNat⟩
  · cases read : toNumber text with
    | error error => exact ⟨error, rfl⟩
    | ok n => exact absurd (toNumber_eq_ok_iff.mp read) (foreign n)
  · exact ⟨Nat.le_of_lt_succ numeral.lt, numeral.word⟩

/-- Nine digits with zeros in front, ten digits that a word does not hold, and the largest number of 64
bits. -/
theorem toNumber_numerals_of_zeros :
    toNumber (ascii "000000042") = .ok 42 ∧
    (∃ error, toNumber (ascii "4294967338") = .error error) ∧
    (∃ word, Decimal.word? (ascii "000000042") = some word ∧ word.toInt = 42) ∧
    toNumber (Decimal.natural 18446744073709551615)
      = .error (.numberTooLarge (Decimal.natural 18446744073709551615)) := by
  obtain ⟨read, unread, fits, writtenOut⟩ := toNumber_numerals
  have zeros : IsNumeral (ascii "000000042") 42 :=
    ⟨by decide, by decide, List.all_eq_true.mp (by decide), by decide⟩
  have long : ∀ n, ¬ IsNumeral (ascii "4294967338") n := fun n numeral =>
    absurd numeral.few (by decide)
  exact ⟨(read _ _).mpr zeros, unread _ long, (fits _ _ zeros).2, writtenOut 18446744073709551615⟩

end Settings

end ClauseRouter
