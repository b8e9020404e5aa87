/-!
# Journey.Checked.Basic -- checks that report every fault with its place

A check of a document either accepts it with a value or names the places of all its faults.  Checks
are combined side by side: the combination is accepted when both parts are, and otherwise reports
the faults of the first part and then those of the second.  So one reading of a document reports
everything that is wrong with it, in the order in which its parts were asked for.

Main statements: a combination is accepted exactly when both parts are (`seq_eq_valid_iff`), and
moving a check under a key moves its faults and nothing else (`under_eq_valid_iff`).
-/

namespace Journey

set_option autoImplicit false

/-- Where in a document something stands: keys, and positions in lists, from the outside in. -/
abbrev Place := List String

/-- An accepted value, or the places of the faults. -/
inductive Checked (α : Type) where
  | valid (value : α)
  | faulty (places : List Place)

namespace Checked

variable {α β : Type}

/-- A fault of the document as a whole. -/
def fault : Checked α := .faulty [[]]

def map (f : α → β) : Checked α → Checked β
  | .valid a => .valid (f a)
  | .faulty ps => .faulty ps

/-- Both checks side by side. -/
def seq : Checked (α → β) → Checked α → Checked β
  | .valid f, .valid a => .valid (f a)
  | .valid _, .faulty qs => .faulty qs
  | .faulty ps, .valid _ => .faulty ps
  | .faulty ps, .faulty qs => .faulty (ps ++ qs)

instance : Applicative Checked where
  pure := .valid
  map := map
  seq f x := seq f (x ())

/-- The check of a part, whose faults are named from the outside of the part. -/
def under (key : String) : Checked α → Checked α
  | .valid a => .valid a
  | .faulty ps => .faulty (ps.map (key :: ·))

/-- A value that is accepted if there is one. -/
def ofOption : Option α → Checked α
  | some a => .valid a
  | none => fault

/-- The accepted value. -/
def toOption : Checked α → Option α
  | .valid a => some a
  | .faulty _ => none

/-- The places of the faults. -/
def faults : Checked α → List Place
  | .valid _ => []
  | .faulty ps => ps

/-- Checks of the items of a list; a fault is named by the position of its item. -/
def items (check : β → Checked α) (start : Nat) : List β → Checked (List α)
  | [] => .valid []
  | b :: bs => seq (map List.cons ((check b).under (toString start))) (items check (start + 1) bs)

theorem seq_eq_valid_iff {f : Checked (α → β)} {x : Checked α} {b : β} :
    seq f x = .valid b ↔ ∃ g a, f = .valid g ∧ x = .valid a ∧ g a = b := by
  cases f <;> cases x <;> simp [seq]

theorem map_eq_valid_iff {f : α → β} {x : Checked α} {b : β} :
    map f x = .valid b ↔ ∃ a, x = .valid a ∧ f a = b := by
  cases x <;> simp [map]

@[simp] theorem under_eq_valid_iff {key : String} {x : Checked α} {a : α} :
    x.under key = .valid a ↔ x = .valid a := by
  cases x <;> simp [under]

end Checked

end Journey
