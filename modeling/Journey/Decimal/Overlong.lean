import Journey.Decimal.Reading

/-!
# Journey.Decimal.Overlong -- whole numbers with too many digits

Digits are turned into a whole number, and a whole number into digits, only as long as there are at
most `mostDigits` of them.  A longer number cannot be read or written, and what asks for it fails
(`Overlong`).  Main statement: the numbers that are too long are those from `leastLong` on, which is a
power of ten (`isLong_iff`).
-/

namespace Journey

set_option autoImplicit false

/-- A whole number has too many digits. -/
inductive Overlong where
  /-- So many digits were to be read. -/
  | read (digits : Nat)
  /-- The digits were to be written. -/
  | written
  deriving DecidableEq

namespace Overlong

/-- What is said of digits that are not read or written. -/
def message (o : Overlong) : String :=
  let advice := "use sys.set_int_max_str_digits() to increase the limit"
  let limit := "Exceeds the limit (" ++ Decimal.writeNat Decimal.mostDigits
    ++ " digits) for integer string conversion"
  match o with
  | .read digits => limit ++ ": value has " ++ Decimal.writeNat digits ++ " digits; " ++ advice
  | .written => limit ++ "; " ++ advice

end Overlong

namespace Decimal

/-- Whether a number has too many digits. -/
def isLong (n : Nat) : Bool := mostDigits < digitCount n

/-- The least whole number with too many digits: a one, and then as many zeros as there may be digits. -/
@[irreducible] def leastLong : Nat := Nat.pow 10 mostDigits

theorem digitCount_le_iff {n k : Nat} (pos : 0 < k) : digitCount n ≤ k ↔ n < Nat.pow 10 k :=
  Nat.length_toDigits_le_iff (by decide) pos

theorem isLong_iff {n : Nat} : isLong n = true ↔ leastLong ≤ n := by
  have short : digitCount n ≤ mostDigits ↔ n < leastLong := by
    unfold leastLong
    exact digitCount_le_iff (by decide)
  rw [isLong, decide_eq_true_iff, ← Nat.not_le, short, Nat.not_lt]

theorem isLong_eq_false_iff {n : Nat} : isLong n = false ↔ n < leastLong := by
  rw [← Bool.not_eq_true, isLong_iff, Nat.not_le]

theorem one_le_leastLong : 1 ≤ leastLong := isLong_eq_false_iff.1 (by decide)

end Decimal

end Journey
