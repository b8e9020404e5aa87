import Journey.Editor.Basic
import Journey.Workflow.Change

/-!
# Journey.Editor.Clipboard -- copying and pasting

What is copied are the selected nodes with the edges between them.  A paste adds all of it once more
under new identifiers, a little to the side, and selects what it has added.  Triggers are not pasted,
since a workflow has one, and the edges of a trigger are left out with it.  What is copied stays, so
that it can be pasted again.

Main statement: a copied edge joins two copied nodes (`mem_edges_ofWorkflow`).
-/

namespace Journey

set_option autoImplicit false

namespace Clip

/-- The nodes of a workflow with the identifiers, and the edges between them. -/
def ofWorkflow (w : Workflow) (ids : List String) : Clip :=
  let nodes := w.nodes.filter fun n => ids.contains n.id
  let within := nodes.map (·.id)
  { nodes, edges := w.edges.filter fun e => within.contains e.source && within.contains e.target }

theorem mem_edges_ofWorkflow {w : Workflow} {ids : List String} {e : Edge} :
    e ∈ (ofWorkflow w ids).edges ↔ e ∈ w.edges
      ∧ e.source ∈ (ofWorkflow w ids).nodes.map (·.id)
      ∧ e.target ∈ (ofWorkflow w ids).nodes.map (·.id) := by
  simp [ofWorkflow]

/-- A node under a new identifier, moved by an amount. -/
def copyNode (offset : Float) (n : Node) : Fresh Node := do
  return { n with id := ← Fresh.nodeId n.kind.name, position := n.position.shifted offset }

/-- An edge under a new identifier between two nodes; it is not highlighted. -/
def copyEdge (e : Edge) (source target : String) : Fresh Edge := do
  return { e with
    id := ← Fresh.edgeId source target, source, target, data := { branch := e.data.branch } }

/-- Old identifiers with the new ones; where two nodes had the same, the last one counts. -/
def newNames (nodes copies : List Node) : List (String × String) :=
  ((nodes.map (·.id)).zip (copies.map (·.id))).reverse

/-- The edges whose two ends are renamed. -/
def copyEdges (newNames : List (String × String)) : List Edge → Fresh (List Edge)
  | [] => return []
  | e :: es =>
      match newNames.lookup e.source, newNames.lookup e.target with
      | some source, some target => do
          let copy ← copyEdge e source target
          return copy :: (← copyEdges newNames es)
      | _, _ => copyEdges newNames es

/-- Everything but the triggers and their edges, under new identifiers and moved by an amount. -/
def copy (offset : Float) (c : Clip) : Fresh Clip := do
  let nodes := c.nodes.filter fun n => !n.isA .trigger
  let copies ← nodes.mapM (copyNode offset)
  return { nodes := copies, edges := ← copyEdges (newNames nodes copies) c.edges }

end Clip

namespace Editor

/-- The selected nodes are put on the clipboard with the edges between them, if there are any. -/
def copy (e : Editor) : Editor × Option Clip :=
  let clip := Clip.ofWorkflow e.workflow e.selection.nodes
  if clip.nodes.isEmpty then (e, none) else ({ e with clipboard := some clip }, some clip)

/-- The editor with what was copied added to its workflow and selected. -/
def insert (e : Editor) (c : Clip) : Editor :=
  e.record
    { e.workflow with
      nodes := e.workflow.nodes ++ c.nodes, edges := e.workflow.edges ++ c.edges }
    (some { nodes := c.nodes.map (·.id), edges := c.edges.map (·.id) })

/-- What is on the clipboard is pasted, if anything of it can be. -/
def paste (e : Editor) : Fresh (Editor × Option Clip) :=
  match e.clipboard with
  | none => return (e, none)
  | some clip => do
      let c ← clip.copy e.limits.pasteOffset
      return if c.nodes.isEmpty then (e, none) else (e.insert c, some c)

end Editor

end Journey
