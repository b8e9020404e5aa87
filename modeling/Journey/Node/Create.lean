import Journey.Node.Catalogue

/-!
# Journey.Node.Create -- new blocks

A new block of a kind takes the settings it is given, or the standard ones of its kind, the title of
its kind unless it is given one, and a new identifier unless it is given one.  The settings of a
condition block may be any document; those of the other kinds are checked.  If they are right the
place on the canvas is checked, and if that is right the identifier and the title are.
-/

namespace Journey

set_option autoImplicit false

/-- What a new block is to be.  A void identifier or title asks for the usual one. -/
structure NodeRequest where
  kind : NodeKind
  id : Document := .null
  title : Document := .null
  position : Fields := []
  config : Option Document := none

namespace NodeRequest

/-- The settings of the new block. -/
def settings (r : NodeRequest) : Checked Config :=
  match r.config with
  | none => .valid r.kind.standardConfig
  | some d =>
      match r.kind with
      | .condition => .valid (.condition { clauses := Condition.canonical d })
      | k => Config.decode k d.fields

/-- The text that is asked for, or the usual one. -/
def textOr (usual : String) (d : Document) : Checked String :=
  if d.isVoid then .valid usual else .text d

/-- The new block with the identifier it is given, which may be empty. -/
def node (r : NodeRequest) (config : Config) (position : Position) : Checked Node :=
  (fun id title => { id, title, position, config })
    <$> (textOr "" r.id).under "id"
    <*> (textOr r.kind.block.label r.title).under "title"

/-- The check of the request: its settings, its place, and then its texts. -/
def check (r : NodeRequest) : Checked Node :=
  match r.settings with
  | .faulty places => .faulty places
  | .valid config =>
      match Position.decode r.position with
      | .faulty places => .faulty places
      | .valid position => r.node config position

/-- What is converted when the settings of the new block are read. -/
def conversions (r : NodeRequest) : List Conversion :=
  (r.config.map (Config.salvageConversions r.kind)).getD []

/-- The new block. -/
def create (r : NodeRequest) : Checked (Fresh Node) := r.check.map Node.identify

end NodeRequest

end Journey
