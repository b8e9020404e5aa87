import Journey.Checked.Basic
import Journey.Decimal.Reading
import Journey.Document.Basic

/-!
# Journey.Checked.Scalar -- the plain values a field may hold

Every field of a stored document has a declared kind, and these are the checks for the kinds.  A
text has to be a text.  Truth values and numbers are accepted in every form that says them without
loss: a truth value also as zero or one or by its usual names, a floating number also as an integer,
a truth value or a numeral, a whole number also as a floating number without fraction, a truth value
or a numeral.  A choice has to be spelled exactly.  Nothing is accepted only where a field is
optional (`orNull`).
-/

namespace Journey.Checked

set_option autoImplicit false

variable {α : Type}

/-- A text. -/
def text : Document → Checked String
  | .text s => .valid s
  | _ => fault

/-- The names of a truth value, in small letters. -/
def flagNames : List (String × Bool) :=
  [("0", false), ("f", false), ("n", false), ("no", false), ("off", false), ("false", false),
   ("1", true), ("t", true), ("y", true), ("yes", true), ("on", true), ("true", true)]

/-- The truth value that a name stands for, in any case of the base letters. -/
def flagNamed? (s : String) : Option Bool :=
  flagNames.lookup (String.ofList (s.toList.map Decimal.smallLetter))

/-- The truth value that zero or one stands for. -/
def flagOfInt? (n : Int) : Option Bool :=
  if n = 0 then some false else if n = 1 then some true else none

/-- A truth value. -/
def flag : Document → Checked Bool
  | .bool b => .valid b
  | .int n => ofOption (flagOfInt? n)
  | .float x => ofOption ((Decimal.Binary.ofFloat x).integer?.bind flagOfInt?)
  | .text s => ofOption (flagNamed? s)
  | _ => fault

/-- A floating number. -/
def real : Document → Checked Float
  | .float x => .valid x
  | .int n => ofOption (Decimal.ofInt? n)
  | .bool b => .valid (if b then 1.0 else 0.0)
  | .text s => ofOption (Decimal.strictReal? s)
  | _ => fault

/-- The integer a floating number without fraction is, if sixty-four bits hold it. -/
def wholeOfFloat? (x : Float) : Option Int :=
  (Decimal.Binary.ofFloat x).integer?.filter fun n => n.natAbs < Nat.pow 2 63

/-- A whole number. -/
def whole : Document → Checked Int
  | .int n => .valid n
  | .bool b => .valid (if b then 1 else 0)
  | .float x => ofOption (wholeOfFloat? x)
  | .text s => ofOption (Decimal.strictInt? s)
  | _ => fault

/-- One of a set of names. -/
def choice (named? : String → Option α) : Document → Checked α
  | .text s => ofOption (named? s)
  | _ => fault

/-- Nothing, or a value. -/
def orNull (check : Document → Checked α) : Document → Checked (Option α)
  | .null => .valid none
  | d => map some (check d)

/-- A list of values. -/
def list (check : Document → Checked α) : Document → Checked (List α)
  | .list ds => items check 0 ds
  | _ => fault

/-- An object, read as its row. -/
def object (check : Fields → Checked α) : Document → Checked α
  | .object row => check row
  | _ => fault

@[simp] theorem text_text (s : String) : text (.text s) = .valid s := rfl

@[simp] theorem flag_bool (b : Bool) : flag (.bool b) = .valid b := rfl

@[simp] theorem real_float (x : Float) : real (.float x) = .valid x := rfl

@[simp] theorem whole_int (n : Int) : whole (.int n) = .valid n := rfl

@[simp] theorem orNull_null (check : Document → Checked α) : orNull check .null = .valid none := rfl

end Journey.Checked
