import Journey.Node.Basic
import Journey.Workflow.Edge

/-!
# Journey.Workflow.Basic -- workflows

A workflow is a list of nodes and a list of edges with an identifier, a name, a status and a version.
The order of the nodes matters for display only, that of the edges decides which of several is
followed.  Its settings and its runtime map are kept as they are.  Nothing forces the identifiers to
be distinct: where one is looked up, `node?` takes the first node that has it and `indexed?` the
last.

A stored workflow is checked as a whole, and all its faults are reported.  New identifiers are drawn
where they are left out.
-/

namespace Journey

set_option autoImplicit false

/-- Where a workflow stands in its life. -/
inductive WorkflowStatus where
  | draft
  | live
  | paused
  | archived
  deriving DecidableEq

namespace WorkflowStatus

def name : WorkflowStatus → String
  | .draft => "draft"
  | .live => "live"
  | .paused => "paused"
  | .archived => "archived"

def all : List WorkflowStatus := [.draft, .live, .paused, .archived]

def named? (s : String) : Option WorkflowStatus := all.find? fun x => x.name == s

@[simp] theorem named?_name (x : WorkflowStatus) : named? x.name = some x := by cases x <;> decide

end WorkflowStatus

/-- The name of a workflow that is not given one. -/
def untitled : String := "Untitled workflow"

/-- Nodes and the edges between them. -/
structure Workflow where
  id : String
  name : String := untitled
  status : WorkflowStatus := .draft
  version : Int := 1
  nodes : List Node := []
  edges : List Edge := []
  settings : Fields := []
  runtimeMap : Fields := []

namespace Workflow

/-- The first node with the identifier. -/
def node? (w : Workflow) (id : String) : Option Node := w.nodes.find? fun n => n.id == id

/-- The last node with the identifier, which is the only one if identifiers are distinct. -/
def indexed? (nodes : List Node) (id : String) : Option Node :=
  nodes.reverse.find? fun n => n.id == id

/-- The first edge with the identifier. -/
def edge? (w : Workflow) (id : String) : Option Edge := w.edges.find? fun e => e.id == id

/-- The edges that leave a node. -/
def edgesFrom (edges : List Edge) (id : String) : List Edge := edges.filter fun e => e.source == id

/-- The edges that enter a node. -/
def edgesTo (edges : List Edge) (id : String) : List Edge := edges.filter fun e => e.target == id

/-- The first trigger. -/
def trigger? (w : Workflow) : Option Node := w.nodes.find? (·.isA .trigger)

/-- The exits. -/
def exits (w : Workflow) : List Node := w.nodes.filter (·.isA .exit)

/-- The identifiers of the nodes. -/
def nodeIds (w : Workflow) : List String := w.nodes.map (·.id)

/-- The identifiers of the edges. -/
def edgeIds (w : Workflow) : List String := w.edges.map (·.id)

/-- Whether a node has the identifier. -/
def hasNode (w : Workflow) (id : String) : Bool := w.nodeIds.contains id

/-- Whether an edge has the identifier. -/
def hasEdge (w : Workflow) (id : String) : Bool := w.edgeIds.contains id

/-! ## Workflows in documents -/

/-- A workflow whose identifiers may still be left out. -/
structure Draft where
  id : Option String
  name : String
  status : WorkflowStatus
  version : Int
  nodes : List Node
  edges : List Edge
  settings : Fields
  runtimeMap : Fields

namespace Draft

/-- The check of the members of a stored workflow. -/
def decodeRow (row : Fields) : Checked Draft :=
  Draft.mk
    <$> .field row (.word "id") (fun d => .map some (Checked.text d)) none
    <*> .field row (.word "name") .text untitled
    <*> .field row (.word "status") (.choice WorkflowStatus.named?) .draft
    <*> .field row (.word "version") .whole 1
    <*> .field row (.word "nodes") (.list Node.decode) []
    <*> .field row (.word "edges") (.list Edge.decode) []
    <*> .field row (.word "settings") (.object .valid) []
    <*> .field row ⟨"runtimeMap", "runtime_map"⟩ (.object .valid) []

/-- The workflow with new identifiers where they are left out. -/
def complete (d : Draft) : Fresh Workflow := do
  let nodes ← d.nodes.mapM Node.identify
  let edges ← d.edges.mapM Edge.identify
  let id ← match d.id with
    | some id => pure id
    | none => Fresh.workflowId
  return { id, name := d.name, status := d.status, version := d.version, nodes, edges,
           settings := d.settings, runtimeMap := d.runtimeMap }

end Draft

/-- The check of a stored workflow. -/
def decode (d : Document) : Checked (Fresh Workflow) :=
  (Checked.object Draft.decodeRow d).map Draft.complete

/-- The workflow as it is stored. -/
def document (w : Workflow) : Document :=
  .object
    [("id", .text w.id), ("name", .text w.name), ("status", .text w.status.name),
     ("version", .int w.version), ("nodes", .list (w.nodes.map (Node.document .dropped))),
     ("edges", .list (w.edges.map (Edge.document .dropped))), ("settings", .object w.settings),
     ("runtimeMap", .object w.runtimeMap)]

end Workflow

end Journey
