import Journey.Checked.Scalar

/-!
# Journey.Checked.Record -- objects with declared fields

A declared field has two spellings (`Key`): the one in which documents are written, with inner
capitals, and one with underscores, which is read as well.  When an object has both, the written
spelling wins.  A field that is absent takes its default; a required one is then a fault under its
written spelling, while a fault of a present field is named by the spelling that was found.

Objects that keep what they do not know keep every member that no declared field has taken
(`Key.unclaimed`): the loser of two spellings is one of them.  Main statements: a field is found
under its written spelling if that is there and under the other one otherwise (`find?_written`,
`find?_other`).
-/

namespace Journey

set_option autoImplicit false

/-- The two spellings of a declared field. -/
structure Key where
  written : String
  other : String
  deriving DecidableEq

namespace Key

/-- A field of one word, whose spellings agree. -/
def word (name : String) : Key := ⟨name, name⟩

/-- The spelling under which the row has the field, and the value there. -/
def find? (key : Key) (row : Fields) : Option (String × Document) :=
  match Fields.get? row key.written with
  | some d => some (key.written, d)
  | none => (Fields.get? row key.other).map fun d => (key.other, d)

/-- The members of the row that none of the fields has taken. -/
def unclaimed (keys : List Key) (row : Fields) : Fields :=
  let taken := keys.filterMap fun k => (k.find? row).map (·.1)
  row.filter fun m => !taken.contains m.1

/-- The spellings of the fields. -/
def spellings (keys : List Key) : List String := keys.flatMap fun k => [k.written, k.other]

theorem find?_written {key : Key} {row : Fields} {d : Document}
    (h : Fields.get? row key.written = some d) : key.find? row = some (key.written, d) := by
  simp [find?, h]

theorem find?_other {key : Key} {row : Fields} {d : Document}
    (absent : Fields.get? row key.written = none) (h : Fields.get? row key.other = some d) :
    key.find? row = some (key.other, d) := by
  simp [find?, absent, h]

end Key

namespace Checked

variable {α : Type}

/-- A declared field with a default. -/
def field (row : Fields) (key : Key) (check : Document → Checked α) (default : α) : Checked α :=
  match key.find? row with
  | some (spelling, d) => (check d).under spelling
  | none => .valid default

/-- A declared field that has to be there. -/
def required (row : Fields) (key : Key) (check : Document → Checked α) : Checked α :=
  match key.find? row with
  | some (spelling, d) => (check d).under spelling
  | none => .faulty [[key.written]]

theorem field_of_absent {row : Fields} {key : Key} {check : Document → Checked α} {default : α}
    (h : key.find? row = none) : field row key check default = .valid default := by
  simp [field, h]

theorem field_of_found {row : Fields} {key : Key} {check : Document → Checked α} {default : α}
    {spelling : String} {d : Document} (h : key.find? row = some (spelling, d)) :
    field row key check default = (check d).under spelling := by
  simp [field, h]

end Checked

end Journey
