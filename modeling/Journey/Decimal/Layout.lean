import Journey.Decimal.Shortest

/-!
# Journey.Decimal.Layout -- how a floating number is written

The digits come from `shortest`; a `Layout` says where the point goes.  Numbers whose first digit
stands between the two limits are written positionally, with at least one digit on each side of the
point; all others with one digit before the point and an exponent that has a sign and at least
`exponentWidth` digits.  `plain` is the layout of every text in this library: positional from
`0.0001` to below ten to the sixteenth.
-/

namespace Journey.Decimal

set_option autoImplicit false

/-- Where the positional form ends, and how the rest is spelled. -/
structure Layout where
  leastPositional : Int
  positionalLimit : Int
  exponentWidth : Nat
  undefined : String
  infinite : String

/-- Positional from ten to the minus four up to below ten to the sixteen. -/
def plain : Layout :=
  { leastPositional := -4, positionalLimit := 16, exponentWidth := 2,
    undefined := "nan", infinite := "inf" }

/-- The digits without the zeros at the end, the last digit first. -/
def withoutTrailingZeros (reversed : List Char) : List Char :=
  reversed.dropWhile (· = '0')

/-- The text of whole digits, the exponent of the first given. -/
def Layout.place (l : Layout) (digits : List Char) (exponent : Int) : List Char :=
  if l.leastPositional ≤ exponent ∧ exponent < l.positionalLimit then
    match exponent with
    | .negSucc k => '0' :: '.' :: (List.replicate k '0' ++ digits)
    | .ofNat k =>
        let padded := digits ++ List.replicate (k + 1 - digits.length) '0'
        let fraction := padded.drop (k + 1)
        padded.take (k + 1) ++ '.' :: (if fraction.isEmpty then ['0'] else fraction)
  else
    let size := Nat.toDigits 10 exponent.natAbs
    let fraction := digits.drop 1
    digits.take 1 ++ (if fraction.isEmpty then [] else '.' :: fraction)
      ++ 'e' :: (if exponent < 0 then '-' else '+')
      :: (List.replicate (l.exponentWidth - size.length) '0' ++ size)

/-- The text of a number without its sign. -/
def Layout.magnitude (l : Layout) (m : Nat) (q : Int) : List Char :=
  if m = 0 then ['0', '.', '0']
  else
    let s := shortest m q
    let digits := Nat.toDigits 10 s.digits
    l.place (withoutTrailingZeros digits.reverse).reverse (digits.length - 1 + s.scale)

/-- The text of a floating number. -/
def Layout.write (l : Layout) (x : Float) : String :=
  match Binary.ofFloat x with
  | .undefined => l.undefined
  | .infinite negative => if negative then "-" ++ l.infinite else l.infinite
  | .finite negative m q =>
      String.ofList ((if negative then ['-'] else []) ++ l.magnitude m q)

/-- The text of an integer. -/
def writeInt (n : Int) : String :=
  match n with
  | .ofNat k => String.ofList (Nat.toDigits 10 k)
  | .negSucc k => String.ofList ('-' :: Nat.toDigits 10 (k + 1))

/-- The text of a natural number. -/
def writeNat (n : Nat) : String := String.ofList (Nat.toDigits 10 n)

/-- Different natural numbers have different texts. -/
theorem writeNat_inj {m n : Nat} (h : writeNat m = writeNat n) : m = n := by
  have digits : Nat.toDigits 10 m = Nat.toDigits 10 n := String.ofList_injective h
  rw [← Nat.ofDigitChars_ten_toDigits (n := m), digits, Nat.ofDigitChars_ten_toDigits]

/-- A number as people write it: without point when it has no fraction. -/
def writeTerse (x : Float) : String :=
  match (Binary.ofFloat x).integer? with
  | some n => writeInt n
  | none => plain.write x

end Journey.Decimal
