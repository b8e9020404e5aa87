import Journey.Decimal.Layout
import Journey.Decimal.Reading
import Journey.Text.Free

/-!
# Journey.Condition.Handle -- branch handles and their labels

Each branch of a condition block leaves it on a handle of its own: `if` for the first clause,
`else_if_1`, `else_if_2` and so on for the others, `else` when no clause holds.  The number of an
else-if handle is written in base digits without a zero in front, so each number has one handle
(`elseIf?` reads it back) and `else_if_0` is none.

A label is made from the handle.  A handle of no known form is labelled by the position of its
clause.
-/

namespace Journey.Handle

set_option autoImplicit false

/-- The handle of the first clause. -/
def ifBranch : String := "if"

/-- The handle taken when no clause holds. -/
def elseBranch : String := "else"

/-- The handle of the else-if branch with a number. -/
def elseIf (n : Nat) : String := "else_if_" ++ Decimal.writeNat n

/-- The number of an else-if handle, however many digits it has.  What asks for the number gets it
by `Handle.number`, which fails when they are too many. -/
def elseIf? (handle : String) : Option Nat :=
  match handle.toList with
  | 'e' :: 'l' :: 's' :: 'e' :: '_' :: 'i' :: 'f' :: '_' :: d :: ds =>
      if '1' ≤ d && d ≤ '9' && ds.all Decimal.isDigit then some (Decimal.digitsValue (d :: ds))
      else none
  | _ => none

theorem elseIf?_elseIf {n : Nat} (h : 1 ≤ n) : elseIf? (elseIf n) = some n := by
  obtain ⟨d, ds, digits, low, high⟩ := Decimal.toDigits_eq_cons h
  have all : ds.all Decimal.isDigit = true := by
    refine List.all_eq_true.2 fun c mem => Decimal.isDigit_of_mem_toDigits (n := n) ?_
    exact digits ▸ List.mem_cons_of_mem d mem
  have value : Decimal.digitsValue (d :: ds) = n := digits ▸ Decimal.digitsValue_toDigits n
  have chars : (elseIf n).toList = 'e' :: 'l' :: 's' :: 'e' :: '_' :: 'i' :: 'f' :: '_' :: d :: ds := by
    simp [elseIf, Decimal.writeNat, digits]
  simp [elseIf?, chars, low, high, all, value]

/-- The handle of the clause at a position. -/
def ofClause (position : Nat) : String :=
  if position = 0 then ifBranch else elseIf position

/-- The label of the else-if branch with a number. -/
def elseIfLabel (n : Nat) : String := "Else If " ++ Decimal.writeNat n

/-- The label of the clause at a position. -/
def labelOfClause (position : Nat) : String :=
  if position = 0 then "If" else elseIfLabel position

/-- The label of a handle; one of no known form takes the label of the clause at the position. -/
def label (handle : String) (position : Nat) : String :=
  if handle = ifBranch then "If"
  else if handle = elseBranch then "Else"
  else match elseIf? handle with
    | some n => elseIfLabel n
    | none => labelOfClause position

/-- Different numbers have different else-if handles. -/
theorem elseIf_inj (m n : Nat) (h : elseIf m = elseIf n) : m = n := by
  refine Decimal.writeNat_inj (String.toList_injective ?_)
  have := congrArg String.toList h
  simpa only [elseIf, String.toList_append, List.append_cancel_left_eq] using this

/-- The least number from one on whose else-if handle is not used. -/
def leastFree (used : List String) : Nat := Text.freeNumber elseIf 1 used

theorem elseIf_leastFree_not_mem (used : List String) : elseIf (leastFree used) ∉ used :=
  Text.not_mem_freeNumber elseIf_inj

end Journey.Handle
