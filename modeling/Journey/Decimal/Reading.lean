import Journey.Decimal.Layout
import Journey.Text.Blank
import Journey.Text.Digit

/-!
# Journey.Decimal.Reading -- numbers read from text

A numeral is a sign, digits with at most one point among or around them, and an exponent; the names
`inf`, `infinity` and `nan` are numerals too, in any case.  The value is the double nearest to the
decimal, so a numeral that is too large is infinite and one that is too small is zero.

Two customs of writing numerals are read.  The *strict* custom is that of checked documents: base
digits only, and single underscores anywhere between other characters; a whole number may have a
fraction of zeros.  The *free* custom is that of documents under repair and of settings: the digits
of every script, and underscores only between two digits.  White space around a numeral is ignored
in both, except that a strict floating number has either white space or underscores.
-/

namespace Journey.Decimal

set_option autoImplicit false

open Journey.Text (isSpace trimBy digitValue?)

/-- A digit of the base script. -/
def isDigit (c : Char) : Bool := '0' ≤ c && c ≤ '9'

/-- The number that digits of the base script denote. -/
def digitsValue (cs : List Char) : Nat :=
  cs.foldl (fun n c => 10 * n + (c.toNat - 48)) 0

theorem isDigit_of_mem_toDigits {n : Nat} {c : Char} (h : c ∈ Nat.toDigits 10 n) :
    isDigit c = true := by
  have := Nat.isDigit_of_mem_toDigits (by decide) (by decide) h
  simpa [isDigit, Char.isDigit, Char.le_def, UInt32.le_iff_toNat_le] using this

/-- The digits of a number denote it. -/
theorem digitsValue_toDigits (n : Nat) : digitsValue (Nat.toDigits 10 n) = n := by
  have := Nat.ofDigitChars_ten_toDigits (n := n)
  rwa [Nat.ofDigitChars_eq_foldl] at this

/-- A number from one on is written without a zero in front. -/
theorem toDigits_eq_cons {n : Nat} (h : 1 ≤ n) :
    ∃ d ds, Nat.toDigits 10 n = d :: ds ∧ '1' ≤ d ∧ d ≤ '9' := by
  induction n using Nat.strongRecOn with
  | ind n ih =>
    by_cases small : n < 10
    · refine ⟨n.digitChar, [], Nat.toDigits_of_lt_base small, ?_⟩
      have : ∀ k : Fin 10, 1 ≤ k.val → '1' ≤ k.val.digitChar ∧ k.val.digitChar ≤ '9' := by decide
      exact this ⟨n, small⟩ h
    · obtain ⟨d, ds, digits, range⟩ := ih (n / 10) (by omega) (by omega)
      refine ⟨d, ds ++ [(n % 10).digitChar], ?_, range⟩
      rw [Nat.toDigits_of_base_le (by decide) (by omega), digits, List.cons_append]

/-- The small form of a base letter. -/
def smallLetter (c : Char) : Char :=
  if 'A' ≤ c && c ≤ 'Z' then Char.ofNat (c.toNat + 32) else c

/-- A sign and the rest; without a sign the number is positive. -/
def takeSign : List Char → Bool × List Char
  | '-' :: cs => (true, cs)
  | '+' :: cs => (false, cs)
  | cs => (false, cs)

/-- An integer of base digits with an optional sign. -/
def signedDigits? (cs : List Char) : Option Int :=
  let (negative, digits) := takeSign cs
  if digits.isEmpty || !digits.all isDigit then none
  else some (Binary.signed negative (digitsValue digits))

/-! ## Floating numbers -/

/-- The double nearest to `digits` times ten to the `scale`. -/
def nearest (digits : Nat) (scale : Int) : Float :=
  let lead := digitCount digits + scale
  if digits = 0 ∨ lead < -330 then 0.0
  else if 310 < lead then 1.0 / 0.0
  else Float.ofScientific digits (scale < 0) scale.natAbs

/-- The exponent at the end of a numeral: nothing, or a mark and an integer. -/
def exponent? : List Char → Option Int
  | [] => some 0
  | c :: cs => if smallLetter c = 'e' then signedDigits? cs else none

/-- The fraction after a point, if there is a point, and the rest. -/
def takeFraction : List Char → List Char × List Char
  | '.' :: cs => cs.span isDigit
  | cs => ([], cs)

/-- The value of a numeral without sign. -/
def magnitude? (cs : List Char) : Option Float :=
  match String.ofList (cs.map smallLetter) with
  | "inf" => some (1.0 / 0.0)
  | "infinity" => some (1.0 / 0.0)
  | "nan" => some (0.0 / 0.0)
  | _ =>
      let (whole, rest) := cs.span isDigit
      let (fraction, rest) := takeFraction rest
      if whole.isEmpty && fraction.isEmpty then none
      else (exponent? rest).map fun e => nearest (digitsValue (whole ++ fraction)) (e - fraction.length)

/-- The value of a numeral. -/
def numeral? (cs : List Char) : Option Float :=
  let (negative, rest) := takeSign cs
  (magnitude? rest).map fun x => if negative then -x else x

/-! ## Underscores -/

/-- Removes underscores, each of which has to stand between two characters of the set. -/
def dropUnderscores? (between : Char → Bool) (before : Option Char) : List Char → Option (List Char)
  | [] => some []
  | c :: cs =>
      if c = '_' then
        if before.any between && cs.head?.any between then dropUnderscores? between (some c) cs
        else none
      else (dropUnderscores? between (some c) cs).map (c :: ·)

/-- Removes underscores that stand between two digits. -/
def amongDigits? : List Char → Option (List Char) := dropUnderscores? isDigit none

/-- Removes single underscores that stand inside. -/
def singles? : List Char → Option (List Char) := dropUnderscores? (· ≠ '_') none

/-! ## The strict custom -/

/-- A floating number of a checked document.  It may have white space around it or underscores in
it, and not both. -/
def strictReal? (s : String) : Option Float :=
  (numeral? (trimBy isSpace s.toList)).orElse fun _ => (singles? s.toList).bind numeral?

/-- The most digits a whole number may have. -/
def mostDigits : Nat := 4300

/-- A whole number without superfluous characters: no sign but a minus, no zero in front.  The minus
counts as a digit. -/
def canonicalInt? (cs : List Char) : Option Int :=
  let (negative, digits) :=
    match cs with
    | '-' :: rest => (true, rest)
    | _ => (false, cs)
  if digits.isEmpty || !digits.all isDigit then none
  else if digits.head? = some '0' && digits.length != 1 then none
  else if mostDigits < cs.length then none
  else some (Binary.signed negative (digitsValue digits))

/-- What follows the zeros and underscores in front, which is to be a digit or a minus.  The last
of them stays if nothing else is left or a fraction follows. -/
def dropLeadingZeros? : List Char → Option (List Char)
  | '0' :: rest =>
      let more := rest.dropWhile fun c => c = '0' || c = '_'
      match more with
      | [] => some [rest.getLast?.getD '0']
      | c :: _ =>
          if isDigit c || c = '-' then some more
          else if c = '.' then
            some ((rest.take (rest.length - more.length)).getLast?.getD '0' :: more)
          else none
  | c :: rest => if isDigit c then some (c :: rest) else none
  | [] => none

/-- The text without a plus in front and without the zeros after either sign. -/
def dropLead? : List Char → Option (List Char)
  | '+' :: '-' :: _ => none
  | '+' :: rest => dropLeadingZeros? rest
  | '-' :: rest => (dropLeadingZeros? rest).map ('-' :: ·)
  | cs => dropLeadingZeros? cs

/-- The text before a fraction of zeros; any other text as it is. -/
def dropZeroFraction (cs : List Char) : List Char :=
  match cs.dropWhile (· ≠ '.') with
  | _ :: d :: ds => if (d :: ds).all (· = '0') then cs.takeWhile (· ≠ '.') else cs
  | _ => cs

/-- A whole number of a checked document. -/
def strictInt? (s : String) : Option Int :=
  let cs := trimBy isSpace s.toList
  (canonicalInt? cs).orElse fun _ => do
    let cs := dropZeroFraction (← dropLead? cs)
    canonicalInt? ((singles? cs).getD cs)

/-! ## The free custom -/

/-- The base digit of the same value, for a digit of any script. -/
def baseDigit (c : Char) : Char :=
  match digitValue? c with
  | some d => Nat.digitChar d
  | none => c

/-- The characters of a numeral in the free custom, in base digits and without white space around. -/
def freeChars (s : String) : List Char := (trimBy isSpace s.toList).map baseDigit

/-- A floating number in any script. -/
def freeReal? (s : String) : Option Float := (amongDigits? (freeChars s)).bind numeral?

/-- A whole number in any script. -/
def freeInt? (s : String) : Option Int := do
  let cs ← amongDigits? (freeChars s)
  if mostDigits < (takeSign cs).2.length then none else signedDigits? cs

/-- The double nearest to an integer, if it is in range. -/
def ofInt? (n : Int) : Option Float :=
  let x := Float.ofScientific n.natAbs false 0
  if isFinite x then some (if n < 0 then -x else x) else none

end Journey.Decimal
