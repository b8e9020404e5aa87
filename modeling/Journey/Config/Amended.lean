import Journey.Config.Stored

/-!
# Journey.Config.Amended -- settings with some members replaced

A patch names the members of settings that are to change, in either spelling.  The settings are
written out under the other spelling of each declared field, the patch is laid over them, and the
result is checked again as settings of the same kind; so a patch that breaks a field is refused with
the places of its faults.  Main statement: settings keep their kind (`kind_of_amend`).
-/

namespace Journey.Config

set_option autoImplicit false

/-- The other spelling of a key that is a declared field, and any other key as it is. -/
def otherSpelling (keys : List Key) (key : String) : String :=
  match keys.find? fun k => k.written == key with
  | some k => k.other
  | none => key

/-- The settings with the members of the patch in place of their own. -/
def amend (c : Config) (patch : Fields) : Checked Config :=
  decode c.kind
    (Fields.overlay (c.row Key.other .kept)
      (patch.map fun m => (otherSpelling (keys c.kind) m.1, m.2)))

theorem kind_of_amend {c d : Config} {patch : Fields} (h : c.amend patch = .valid d) :
    d.kind = c.kind :=
  kind_of_decode h

end Journey.Config
