/-!
# Journey.Decimal.Binary -- a floating number as an exact multiple of a power of two

A double that is neither infinite nor undefined is a sign and a mantissa times a power of two.
`Binary.ofFloat` reads the three parts off its sixty-four bits, so that everything said about its
digits is said in whole numbers.  Powers are those of `Nat.pow`, with or without the monoid of the
natural numbers in sight.  Main statement: a number without fraction is its own truncation
(`truncated?_of_integer?`).
-/

namespace Journey.Decimal

set_option autoImplicit false

/-- What the bits of a double say: no number, an infinity, or `mantissa` times two to the
`exponent` with a sign. -/
inductive Binary where
  | undefined
  | infinite (negative : Bool)
  | finite (negative : Bool) (mantissa : Nat) (exponent : Int)
  deriving DecidableEq

namespace Binary

/-- The reading of a bit pattern: one sign bit, eleven of exponent, fifty-two of fraction. -/
def ofBits (bits : Nat) : Binary :=
  let negative := bits / Nat.pow 2 63 % 2 == 1
  let biased : Nat := bits / Nat.pow 2 52 % Nat.pow 2 11
  let fraction : Nat := bits % Nat.pow 2 52
  if biased = 2047 then
    if fraction = 0 then .infinite negative else .undefined
  else if biased = 0 then .finite negative fraction (-1074)
  else .finite negative (Nat.pow 2 52 + fraction) ((biased : Int) - 1075)

def ofFloat (x : Float) : Binary := ofBits x.toBits.toNat

/-- Whether a mantissa times a power of two has no fraction. -/
def isWhole (m : Nat) (q : Int) : Bool :=
  match q with
  | .ofNat _ => true
  | .negSucc k => m % Nat.pow 2 (k + 1) == 0

/-- A mantissa times a power of two without its fraction. -/
def wholePart (m : Nat) (q : Int) : Nat :=
  match q with
  | .ofNat k => m * Nat.pow 2 k
  | .negSucc k => m / Nat.pow 2 (k + 1)

/-- A whole number with a sign. -/
def signed (negative : Bool) (n : Nat) : Int := if negative then -(n : Int) else n

/-- The integer that a number without fraction is. -/
def integer? : Binary → Option Int
  | .finite negative m q => if isWhole m q then some (signed negative (wholePart m q)) else none
  | _ => none

/-- The integer next to a finite number in the direction of zero. -/
def truncated? : Binary → Option Int
  | .finite negative m q => some (signed negative (wholePart m q))
  | _ => none

/-- A number without fraction is its own truncation. -/
theorem truncated?_of_integer? {b : Binary} {n : Int} (h : b.integer? = some n) :
    b.truncated? = some n := by
  cases b with
  | finite negative m q =>
    simp only [integer?] at h
    split at h
    · exact h
    · cases h
  | undefined => cases h
  | infinite _ => cases h

end Binary

/-- Neither an infinity nor undefined. -/
def isFinite (x : Float) : Bool :=
  match Binary.ofFloat x with
  | .finite .. => true
  | _ => false

end Journey.Decimal
