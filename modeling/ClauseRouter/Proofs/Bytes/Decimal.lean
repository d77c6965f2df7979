import Mathlib.Data.List.Basic
import Mathlib.Tactic.Lemma
import ClauseRouter.Bytes.Decimal

/-!
# Decimal numbers are read back

`Decimal.integer?` reads the decimal spelling of a number; `Decimal.integer?_integer` says that it reads
every number as it is written.  The spelling holds nothing but digits and perhaps a hyphen
(`Decimal.not_mem_integer`), so it ends before whatever else comes behind it.  It is the one that the
library gives (`Decimal.integer_eq_toString`).
-/

namespace ClauseRouter.Decimal

/-- The number that a string of digits stands for; there has to be a digit. -/
def natural? (text : Bytes) : Option Nat :=
  if text ≠ [] ∧ text.all Bytes.isDigit then some (value text) else none

/-- The number that digits stand for, perhaps behind a hyphen. -/
def integer? : Bytes → Option Int
  | Byte.hyphen :: digits => (natural? digits).map fun n => -(n : Int)
  | digits => (natural? digits).map Int.ofNat

/-! ## Natural numbers -/

/-- A digit is a byte of its own. -/
lemma toNat_digit {c : Char} (digit : c.isDigit) :
    (UInt8.ofNat c.toNat).toNat = c.toNat ∧ 0x30 ≤ c.toNat ∧ c.toNat ≤ 0x39 := by
  have bounds : '0'.val ≤ c.val ∧ c.val ≤ '9'.val := by
    simpa [Char.isDigit, Bool.and_eq_true] using digit
  have low : 0x30 ≤ c.toNat := bounds.1
  have high : c.toNat ≤ 0x39 := bounds.2
  refine ⟨?_, low, high⟩
  rw [UInt8.toNat_ofNat', Nat.mod_eq_of_lt (by omega)]

lemma isDigit_toDigits {n : Nat} {c : Char} (mem : c ∈ Nat.toDigits 10 n) : c.isDigit :=
  Nat.isDigit_of_mem_toDigits (by decide) (by decide) mem

lemma isDigit_of_mem_natural {n : Nat} {b : UInt8} (mem : b ∈ natural n) : Bytes.isDigit b := by
  obtain ⟨c, digit, rfl⟩ := List.mem_map.mp mem
  obtain ⟨same, low, high⟩ := toNat_digit (isDigit_toDigits digit)
  simp [Bytes.isDigit, UInt8.le_iff_toNat_le, same, low, high]

/-- **The digits of a number stand for it.** -/
lemma value_natural (n : Nat) : value (natural n) = n := by
  have read : value (natural n) = Nat.ofDigitChars 10 (Nat.toDigits 10 n) 0 := by
    rw [value, natural, List.foldl_map, Nat.ofDigitChars]
    refine List.foldl_ext _ _ _ fun total c mem => ?_
    rw [(toNat_digit (isDigit_toDigits mem)).1]
    rfl
  rw [read, Nat.ofDigitChars_ten_toDigits]

lemma length_natural_pos (n : Nat) : 0 < (natural n).length := by
  rw [natural, List.length_map, List.length_pos_iff]
  exact Nat.toDigits_ne_nil

lemma natural?_natural (n : Nat) : natural? (natural n) = some n := by
  have digits : (natural n).all Bytes.isDigit :=
    List.all_eq_true.mpr fun b mem => isDigit_of_mem_natural mem
  have some : natural n ≠ [] := List.length_pos_iff.mp (length_natural_pos n)
  rw [natural?, if_pos ⟨some, digits⟩, value_natural]

/-- The digits of a number are those by which the library writes it. -/
lemma natural_eq_toString (n : Nat) : natural n = ascii (toString n) := by
  rw [ascii, Nat.toString_eq_repr, Nat.toList_repr, natural]

/-! ## Integers -/

/-- **A number is written as the library writes it.** -/
lemma integer_eq_toString : ∀ n : Int, integer n = ascii (toString n)
  | .ofNat n => natural_eq_toString n
  | .negSucc n => by
      have spelled : toString (Int.negSucc n) = "-" ++ toString (n + 1) := rfl
      rw [integer, natural_eq_toString, spelled, ascii, ascii, String.toList_append, List.map_append]
      rfl

/-- **A number is read as it is written.** -/
lemma integer?_integer (n : Int) : integer? (integer n) = some n := by
  cases n with
  | ofNat n =>
      have noHyphen : ∀ digits, natural n = Byte.hyphen :: digits → False := by
        intro digits spelled
        have digit : Bytes.isDigit Byte.hyphen :=
          isDigit_of_mem_natural (spelled ▸ List.mem_cons_self : Byte.hyphen ∈ natural n)
        exact absurd digit (by decide)
      rw [integer, integer?.eq_2 _ noHyphen, natural?_natural]
      rfl
  | negSucc n =>
      refine (integer?.eq_1 (natural (n + 1))).trans ?_
      rw [natural?_natural]
      rfl

/-- A number is written with digits and perhaps a hyphen, and with nothing else. -/
lemma not_mem_integer {b : UInt8} (noHyphen : b ≠ Byte.hyphen) (noDigit : Bytes.isDigit b = false)
    (n : Int) : b ∉ integer n := by
  have notNatural (n : Nat) : b ∉ natural n := fun mem => by
    simpa [noDigit] using isDigit_of_mem_natural mem
  cases n with
  | ofNat n => exact notNatural n
  | negSucc n => simpa [integer, noHyphen] using notNatural (n + 1)

end ClauseRouter.Decimal
