import Journey.Checked.Record
import Journey.Document.Nulls
import Journey.Fresh

/-!
# Journey.Workflow.Edge -- connections between blocks

An edge leads from one node to another.  It leaves on a handle, which tells the branches of a block
apart; an edge without a handle and one on the empty handle leave by the same door (`Edge.door`).  Its
label is shown, and whether it is highlighted says that the last dry run went along it.
-/

namespace Journey

set_option autoImplicit false

/-- What an edge carries for display. -/
structure EdgeData where
  branch : Option String := none
  highlighted : Bool := false
  extra : Fields := []

/-- A connection from a node to a node. -/
structure Edge where
  id : String
  source : String
  target : String
  sourceHandle : Option String := none
  targetHandle : Option String := none
  label : Option String := none
  animated : Bool := true
  data : EdgeData := {}

namespace EdgeData

def branchKey : Key := .word "branch"
def highlightedKey : Key := .word "highlighted"

/-- The declared fields in their order. -/
def keys : List Key := [branchKey, highlightedKey]

/-- The check of stored display data. -/
def decode (row : Fields) : Checked EdgeData :=
  EdgeData.mk
    <$> .field row branchKey (.orNull .text) none
    <*> .field row highlightedKey .flag false
    <*> .valid (Key.unclaimed keys row)

def document (nulls : Nulls) (d : EdgeData) : Document :=
  nulls.object <| Fields.overlay
    [("branch", .ofText? d.branch), ("highlighted", .bool d.highlighted)] d.extra

end EdgeData

namespace Edge

/-- The handle an edge leaves on, the empty one if it has none. -/
def door (e : Edge) : String := e.sourceHandle.getD ""

/-- The check of a stored edge; its identifier may be empty. -/
def decodeRow (row : Fields) : Checked Edge :=
  Edge.mk
    <$> .field row (.word "id") .text ""
    <*> .required row (.word "source") .text
    <*> .required row (.word "target") .text
    <*> .field row ⟨"sourceHandle", "source_handle"⟩ (.orNull .text) none
    <*> .field row ⟨"targetHandle", "target_handle"⟩ (.orNull .text) none
    <*> .field row (.word "label") (.orNull .text) none
    <*> .field row (.word "animated") .flag true
    <*> .field row (.word "data") (.object EdgeData.decode) {}

def decode : Document → Checked Edge := .object decodeRow

/-- The edge with a new identifier if it has none. -/
def identify (e : Edge) : Fresh Edge := do
  return { e with id := ← Fresh.orElse e.id (Fresh.edgeId e.source e.target) }

/-- The edge as it is written. -/
def document (nulls : Nulls) (e : Edge) : Document :=
  nulls.object
    [("id", .text e.id), ("source", .text e.source), ("target", .text e.target),
     ("sourceHandle", .ofText? e.sourceHandle), ("targetHandle", .ofText? e.targetHandle),
     ("label", .ofText? e.label), ("animated", .bool e.animated), ("data", e.data.document nulls)]

/-- The edge with its highlight switched. -/
def highlight (e : Edge) (on : Bool) : Edge := { e with data := { e.data with highlighted := on } }

@[simp] theorem id_highlight (e : Edge) (on : Bool) : (e.highlight on).id = e.id := rfl

@[simp] theorem highlighted_highlight (e : Edge) (on : Bool) :
    (e.highlight on).data.highlighted = on := rfl

end Edge

end Journey
