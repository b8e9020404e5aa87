import Journey.Config.Stored
import Journey.Condition.Canonical

/-!
# Journey.Config.Salvaged -- settings from damaged documents

Settings that do not pass their check are salvaged: the members of every declared field that has a
fault are dropped, under both spellings, and what is left is checked again.  A condition block is
salvaged by reading its clauses (`Condition.canonical`).  Main statement: salvaged settings are of
the kind they were salvaged for (`kind_salvage`).
-/

namespace Journey.Config

set_option autoImplicit false

/-- The declared fields whose members have faults. -/
def damaged (kind : NodeKind) (places : List Place) : List Key :=
  (keys kind).filter fun k =>
    places.any fun p => p.head? == some k.written || p.head? == some k.other

/-- The settings of a kind that can be read off a row, `fallback` if nothing can. -/
def salvageFields (kind : NodeKind) (fallback : Config) (row : Fields) : Config :=
  match decode kind row with
  | .valid c => c
  | .faulty places =>
      match decode kind (Fields.without row (Key.spellings (damaged kind places))) with
      | .valid c => c
      | .faulty _ => fallback

/-- The settings of a kind that can be read off any document. -/
def salvage (kind : NodeKind) (fallback : Config) (d : Document) : Config :=
  match kind with
  | .condition => .condition { clauses := Condition.canonical d }
  | k => salvageFields k fallback d.fields

/-- What is converted when the settings of a kind are read off a document. -/
def salvageConversions (kind : NodeKind) (d : Document) : List Conversion :=
  if kind = .condition then Condition.conversions d else []

/-- The settings of a kind that can be read off any document, once what is in it is converted. -/
def trySalvage (kind : NodeKind) (fallback : Config) (d : Document) : Except Overlong Config :=
  Conversion.after (salvageConversions kind d) (salvage kind fallback d)

theorem kind_salvageFields {kind : NodeKind} {fallback : Config} (h : fallback.kind = kind)
    (row : Fields) : (salvageFields kind fallback row).kind = kind := by
  simp only [salvageFields]
  split
  · next hc => exact kind_of_decode hc
  · split
    · next hc => exact kind_of_decode hc
    · exact h

theorem kind_salvage {kind : NodeKind} {fallback : Config} (h : fallback.kind = kind)
    (d : Document) : (salvage kind fallback d).kind = kind := by
  cases kind <;> first | rfl | exact kind_salvageFields h d.fields

end Journey.Config
