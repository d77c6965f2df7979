import ClauseRouter.Bytes

/-!
# Decimal numbers

Counts and codes are written in decimal, without sign or leading zero except for negative codes.

* `natural`, `integer` — the digits of a number.
* `value` — the number that a run of digits stands for, leading zeros allowed.
* `word?` — reads digits into a word of the machine: **there is no result if a step leaves the word.**
-/

namespace ClauseRouter.Decimal

/-- The decimal digits of a natural number, the highest first. -/
def natural (n : Nat) : Bytes := (Nat.toDigits 10 n).map fun c => UInt8.ofNat c.toNat

/-- The decimal digits of an integer, after a hyphen if it is negative. -/
def integer : Int → Bytes
  | .ofNat n => natural n
  | .negSucc n => Byte.hyphen :: natural (n + 1)

/-- The number that a string of digits stands for, read from the highest digit on. -/
def value (digits : Bytes) : Nat :=
  digits.foldl (fun total digit => 10 * total + (digit.toNat - Byte.zero.toNat)) 0

/-- The number that a digit stands for. -/
def digitValue (digit : UInt8) : Nat := digit.toNat - Byte.zero.toNat

/-- Takes one more digit into a word of 32 bits with a sign, if such a word holds the number. -/
def takeDigit? (total : Int32) (digit : UInt8) : Option Int32 :=
  let next : Int := 10 * total.toInt + digitValue digit
  if (Int32.ofInt next).toInt = next then some (Int32.ofInt next) else none

/-- Reads digits into a word of 32 bits with a sign. -/
def word? (digits : Bytes) : Option Int32 := digits.foldlM takeDigit? 0

end ClauseRouter.Decimal
