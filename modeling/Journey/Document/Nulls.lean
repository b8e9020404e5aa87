import Journey.Document.Basic

/-!
# Journey.Document.Nulls -- writing objects with or without absent values

The same object is written in two ways.  In a stored workflow, fields without value are left out; in
a full view of one part, they are there and hold nothing.  `Nulls` is that choice, and `Nulls.object`
writes an object by it.  Only the members of the object itself are looked at: what lies deeper was
written by its own choice or is foreign and kept.
-/

namespace Journey

set_option autoImplicit false

/-- Whether members that hold nothing are written. -/
inductive Nulls where
  | kept
  | dropped
  deriving DecidableEq

namespace Nulls

/-- The members that are written. -/
def members : Nulls → Fields → Fields
  | .kept, row => row
  | .dropped, row => row.filter fun m => !m.2.isNull

/-- An object with the members that are written. -/
def object (nulls : Nulls) (row : Fields) : Document := .object (nulls.members row)

@[simp] theorem members_kept (row : Fields) : Nulls.kept.members row = row := rfl

end Nulls

end Journey
