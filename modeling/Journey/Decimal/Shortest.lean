import Journey.Decimal.Binary

/-!
# Journey.Decimal.Shortest -- the fewest digits that read back

A positive number `m * 2 ^ q` is what every real in a small interval around it is rounded to.  The
interval reaches half a unit of the last place up and down; below the least mantissa of an exponent
the neighbour is twice as near and so is the lower end.  The ends belong to it exactly when the
mantissa is even, because a tie is rounded to even.

Of the decimals in the interval the one with the fewest digits is taken, and of several the nearest,
the even one on a tie.  It is found by trying one digit, two digits, and so on: on each decimal grid
only the two neighbours of the number have to be looked at.  Main statement: what a grid offers lies
in the interval (`holds_of_onGrid?`).
-/

namespace Journey.Decimal

set_option autoImplicit false

/-- `digits` times ten to the `scale`. -/
structure Scientific where
  digits : Nat
  scale : Int
  deriving DecidableEq

/-- A number with the interval around it, all three in units of one over `unit`. -/
structure Span where
  low : Nat
  middle : Nat
  high : Nat
  unit : Nat
  closed : Bool

namespace Span

/-- The interval of the reals that are rounded to `m * 2 ^ q`. -/
def around (m : Nat) (q : Int) : Span :=
  let below := if m = Nat.pow 2 52 ∧ -1074 < q then 1 else 2
  let factor := Nat.pow 2 (q - 2).toNat
  ⟨(4 * m - below) * factor, 4 * m * factor, (4 * m + 2) * factor, Nat.pow 2 (2 - q).toNat, m % 2 == 0⟩

/-- The interval with ten to the `scale` as its unit. -/
def inUnitsOf (s : Span) (scale : Int) : Span :=
  let up := Nat.pow 10 (-scale).toNat
  ⟨s.low * up, s.middle * up, s.high * up, s.unit * Nat.pow 10 scale.toNat, s.closed⟩

/-- Whether the whole number `d` lies in the interval. -/
def holds (s : Span) (d : Nat) : Bool :=
  if s.closed then s.low ≤ d * s.unit && d * s.unit ≤ s.high
  else s.low < d * s.unit && d * s.unit < s.high

/-- The nearer of `d` and `d + 1` to the middle, the even one on a tie. -/
def nearer (s : Span) (d : Nat) : Nat :=
  let past := 2 * (s.middle - d * s.unit)
  if past < s.unit then d
  else if s.unit < past then d + 1
  else if d % 2 = 0 then d else d + 1

/-- The best whole number in the interval among the two neighbours of its middle. -/
def onGrid? (s : Span) : Option Nat :=
  let d := s.middle / s.unit
  match s.holds d, s.holds (d + 1) with
  | true, true => some (s.nearer d)
  | true, false => some d
  | false, true => some (d + 1)
  | false, false => none

theorem holds_of_onGrid? {s : Span} {d : Nat} (h : s.onGrid? = some d) : s.holds d = true := by
  simp only [onGrid?] at h
  split at h
  · next lower upper =>
    simp only [Option.some.injEq] at h
    subst h
    simp only [nearer]
    split
    · exact lower
    · split
      · exact upper
      · split
        · exact lower
        · exact upper
  · next lower _ => cases h; exact lower
  · next _ upper => cases h; exact upper
  · cases h

end Span

/-- The number of decimal digits. -/
def digitCount (n : Nat) : Nat := (Nat.toDigits 10 n).length

/-- The exponent of the first digit of the positive number `m * 2 ^ q`. -/
def leadingExponent (m : Nat) (q : Int) : Int :=
  let num := m * Nat.pow 2 q.toNat
  let den := Nat.pow 2 (-q).toNat
  if den ≤ num then (digitCount (num / den) : Int) - 1
  else -(digitCount ((den + num - 1) / num - 1) : Int)

/-- The fewest digits that are rounded to the positive number `m * 2 ^ q`; seventeen suffice. -/
def shortest (m : Nat) (q : Int) : Scientific :=
  let lead := leadingExponent m q
  let span := Span.around m q
  ((List.range 18).findSome? fun (more : Nat) =>
      ((span.inUnitsOf (lead - more)).onGrid?).map fun d => ⟨d, lead - more⟩).getD ⟨0, 0⟩

end Journey.Decimal
