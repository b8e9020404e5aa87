import Journey.Editor.Basic
import Journey.Workflow.Change

/-!
# Journey.Editor.Edges -- connecting blocks

An edge is added only if the rules for connections allow it, and is then selected.  An edge that is
given as it is keeps its identifier and, if it has one, its label.  An edge is moved by removing it
and connecting anew, so the new edge has another identifier; ends and handles that are not named stay
as they were.
-/

namespace Journey.Editor

set_option autoImplicit false

/-- The edge with an identifier. -/
def requireEdge (e : Editor) (id : String) : Except Refusal Edge :=
  match e.workflow.edge? id with
  | some edge => .ok edge
  | none => .error (.unknownEdge id)

/-- A new edge. -/
def connect (e : Editor) (c : Connection) : Edit (Editor × Edge) := do
  let edge ← c.draw e.workflow.nodes e.workflow.edges
  return (e.record (e.workflow.addEdge edge) (some (.edge edge.id)), edge)

/-- What an edge connects. -/
def connectionOf (edge : Edge) : Connection :=
  { source := some edge.source, target := some edge.target
    sourceHandle := edge.sourceHandle, targetHandle := edge.targetHandle }

/-- The edge with its own label, or the other one if it has none. -/
def labelled (edge : Edge) (label : Option String) : Edge :=
  { edge with label := if (edge.label.getD "").isEmpty then label else edge.label }

/-- An edge as it is given. -/
def addEdge (e : Editor) (edge : Edge) : Except Refusal (Editor × Edge) := do
  if e.workflow.hasEdge edge.id then throw (.edgeIdInUse edge.id)
  let c := connectionOf edge
  Conversion.orRefuse (c.conversions e.workflow.nodes e.workflow.edges)
  match c.check e.workflow.nodes e.workflow.edges with
  | .error reason => throw (.rejected reason)
  | .ok granted =>
      let edge := labelled edge granted.label
      return (e.record (e.workflow.addEdge edge) (some (.edge edge.id)), edge)

/-- What an edge is to connect when some of its ends and handles are named. -/
def redirected (edge : Edge) (c : Connection) : Connection :=
  { source := (Connection.given c.source).orElse fun _ => some edge.source
    target := (Connection.given c.target).orElse fun _ => some edge.target
    sourceHandle := c.sourceHandle.orElse fun _ => edge.sourceHandle
    targetHandle := c.targetHandle.orElse fun _ => edge.targetHandle }

/-- An edge with other ends or on other handles. -/
def reconnect (e : Editor) (id : String) (c : Connection) : Edit (Editor × Edge) := do
  let old ← Edit.of (e.requireEdge id)
  let w := e.workflow.withoutEdges [id]
  let edge ← (redirected old c).draw w.nodes w.edges
  return (e.record (w.addEdge edge) (some (.edge edge.id)), edge)

/-- An edge is removed. -/
def removeEdge (e : Editor) (id : String) : Except Refusal Editor := do
  let _ ← e.requireEdge id
  return e.record (e.workflow.withoutEdges [id])

/-- The edges that the canvas reports as removed. -/
def applyEdgeChanges (e : Editor) (removed : List String) : Editor :=
  if removed.any e.workflow.hasEdge then e.record (e.workflow.withoutEdges removed) else e

end Journey.Editor
