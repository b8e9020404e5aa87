import Journey.Node.Create
import Journey.Workflow.Basic

/-!
# Journey.Workflow.Template -- ready-made workflows

Three workflows come with the library: the starter, a trigger joined to an exit, which is the least
workflow that can be published; a welcome with one message and a pause; and a follow-up that asks
whether a message was opened.  A template is a list of blocks with their places and a list of edges
between them by position, so that what is drawn from it differs only in the new identifiers.
-/

namespace Journey

set_option autoImplicit false

/-- A block of a template. -/
structure TemplateNode where
  kind : NodeKind
  position : Position
  title : String := ""
  config : Option Config := none
  counters : Option Counters := none

/-- An edge of a template between blocks given by their positions in the list. -/
structure TemplateEdge where
  source : Nat
  target : Nat
  handle : String := "out"
  label : Option String := none

/-- A ready-made workflow. -/
structure Template where
  name : String
  nodes : List TemplateNode
  edges : List TemplateEdge
  settings : Fields := []

namespace TemplateNode

/-- A new node from the template. -/
def create (t : TemplateNode) : Fresh Node := do
  return {
    id := ← Fresh.nodeId t.kind.name
    title := if t.title.isEmpty then t.kind.block.label else t.title
    position := t.position
    counters := t.counters
    config := t.config.getD t.kind.standardConfig }

end TemplateNode

namespace TemplateEdge

/-- The edge between two nodes; its identifier is made from theirs. -/
def between (t : TemplateEdge) (source target : String) : Edge :=
  { id := "edge_" ++ source ++ "_" ++ target
    source, target
    sourceHandle := some t.handle
    targetHandle := some "in"
    label := t.label
    data := { branch := if t.handle = "out" then none else some t.handle } }

/-- The edge between nodes of the list. -/
def create (t : TemplateEdge) (nodes : List Node) : Edge :=
  let id (position : Nat) : String := (nodes[position]?.map (·.id)).getD ""
  t.between (id t.source) (id t.target)

end TemplateEdge

namespace Template

/-- A new workflow from the template, under its own name or the given one. -/
def create (t : Template) (name : Option String := none) : Fresh Workflow := do
  let nodes ← t.nodes.mapM TemplateNode.create
  let id ← Fresh.workflowId
  return { id, name := name.getD t.name, nodes, edges := t.edges.map (·.create nodes),
           settings := t.settings }

/-- Display settings of the canvas. -/
def grid : Fields := [("snapToGrid", .bool true), ("gridSize", .int 24)]

/-- A trigger joined to an exit. -/
def starter : Template :=
  { name := untitled
    nodes := [{ kind := .trigger, position := ⟨360.0, 80.0⟩ }, { kind := .exit, position := ⟨360.0, 240.0⟩ }]
    edges := [{ source := 0, target := 1 }]
    settings := grid }

/-- Counters of a block that nobody has passed yet. -/
def unused : Counters := { enrollmentCount := some 0 }

/-- A message and a pause. -/
def welcome : Template :=
  { name := "Welcome Journey"
    nodes :=
      [{ kind := .trigger, position := ⟨360.0, 80.0⟩ },
       { kind := .sendEmail, position := ⟨360.0, 240.0⟩, counters := some unused },
       { kind := .wait, position := ⟨360.0, 400.0⟩, counters := some unused },
       { kind := .exit, position := ⟨360.0, 560.0⟩ }]
    edges := [{ source := 0, target := 1 }, { source := 1, target := 2 }, { source := 2, target := 3 }]
    settings := grid }

/-- A message, a pause, and a second message for those who opened the first. -/
def engagement : Template :=
  { name := "Engagement Follow-up"
    nodes :=
      [{ kind := .trigger, position := ⟨360.0, 80.0⟩ },
       { kind := .sendEmail, position := ⟨360.0, 244.0⟩, title := "Intro Email" },
       { kind := .wait, position := ⟨360.0, 408.0⟩, title := "Wait 2 days",
         config := some (.wait { duration := some 2.0, unit := .days }) },
       { kind := .condition, position := ⟨360.0, 572.0⟩, title := "Opened?",
         config := some (.condition {}) },
       { kind := .sendEmail, position := ⟨100.0, 736.0⟩, title := "Follow-up Email" },
       { kind := .exit, position := ⟨100.0, 900.0⟩, title := "Exit" },
       { kind := .exit, position := ⟨620.0, 736.0⟩, title := "Exit (no reply)" }]
    edges :=
      [{ source := 0, target := 1 }, { source := 1, target := 2 }, { source := 2, target := 3 },
       { source := 3, target := 4, handle := Handle.ifBranch, label := some "If" },
       { source := 3, target := 6, handle := Handle.elseBranch, label := some "Else" },
       { source := 4, target := 5 }] }

/-- The templates by name. -/
def all : List (String × Template) :=
  [("starter", starter), ("welcome_journey", welcome), ("engagement_follow_up", engagement)]

/-- The template of a name. -/
def named? (name : String) : Option Template := all.lookup name

end Template

end Journey
