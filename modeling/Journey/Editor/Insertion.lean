import Journey.Editor.Edges
import Journey.Editor.Nodes
import Journey.Layout

/-!
# Journey.Editor.Insertion -- laying out, and inserting a block into an edge

A block is inserted after another one on one of its handles.  The edge that was there is taken out,
the source is connected to the new block, and the new block, if edges may leave it, to the old target.
That last connection is left out when the rules do not allow it.  Then the workflow is laid out.

The plain handle is meant by `out`; an edge without a handle or on the empty one leaves there as well.
-/

namespace Journey

set_option autoImplicit false

/-- The handle of blocks without branches. -/
def plainHandle : String := "out"

/-- Whether an edge leaves a node on a handle. -/
def Edge.leaves (e : Edge) (source : String) (handle : Option String) : Bool :=
  e.source == source &&
    (match handle with
      | some h => e.door == h || (h == plainHandle && e.door.isEmpty)
      | none => false)

namespace Editor

/-- The nodes of a workflow laid out with the distances of the editor. -/
def laidOut (e : Editor) (w : Workflow) : Workflow :=
  { w with nodes := w.layout e.limits.laneSpacing e.limits.rowSpacing }

/-- All nodes are laid out. -/
def autoLayout (e : Editor) : Except Refusal Editor := do
  Conversion.orRefuse e.workflow.layoutConversions
  return e.record (e.laidOut e.workflow)

/-- The connection from a source on a handle to a new node. -/
def leadIn (source : String) (handle : Option String) (node : String) : Connection :=
  { source := some source, target := some node, sourceHandle := handle, targetHandle := some "in" }

/-- The connection from a new node to where the edge it displaces led. -/
def leadOut (node : String) (displaced : Edge) : Connection :=
  { source := some node, target := some displaced.target, sourceHandle := some plainHandle
    targetHandle := some ((Connection.given displaced.targetHandle).getD "in") }

/-- The workflow with the connection added if the rules allow it. -/
def connectIfAllowed (c : Connection) (w : Workflow) : Fresh Workflow :=
  match c.connect w.nodes w.edges with
  | .ok edge => return w.addEdge (← edge)
  | .error _ => return w

/-- The workflow with a node put into the edge that leaves a source on a handle. -/
def splice (w : Workflow) (n : Node) (source : String) (handle : Option String) : Edit Workflow := do
  let displaced := w.edges.find? fun edge => edge.leaves source handle
  let w := (w.addNode n).withoutEdges (displaced.map (·.id)).toList
  let w := w.addEdge (← (leadIn source handle n.id).draw w.nodes w.edges)
  match displaced with
  | some displaced =>
      if n.kind.hasOutput then
        let c := leadOut n.id displaced
        Edit.of (Conversion.orRefuse (c.conversions w.nodes w.edges))
        connectIfAllowed c w
      else return w
  | none => return w

/-- A new node is inserted after a node on a handle, and is then selected. -/
def insertAfter (e : Editor) (source : String) (handle : Option String) (kind title : Document)
    (config : Option Document) : Edit (Editor × Node) := do
  let _ ← Edit.of (e.requireNode source)
  let kind ← Edit.of (NodeKind.require kind)
  let n ← NodeRequest.draw { kind, title, config }
  if n.isA .trigger then throw .triggerInserted
  let w ← splice e.workflow n source handle
  Edit.of (Conversion.orRefuse w.layoutConversions)
  let w := e.laidOut w
  return (e.record w (some (.node n.id)), (w.node? n.id).getD n)

end Editor

end Journey
