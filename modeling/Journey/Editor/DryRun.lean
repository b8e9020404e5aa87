import Journey.Editor.Basic
import Journey.Workflow.Change

/-!
# Journey.Editor.DryRun -- dry runs of the workflow that is edited

A dry run is kept with the editor, and the edges it went along are highlighted.  Neither is a change
of the workflow: it cannot be taken back, and there is nothing to save.  The contact is described by
a stored context, and a context with faults is refused.  Main statement: when a dry run is shown,
exactly the edges it visited are highlighted (`highlighted_showRun`).
-/

namespace Journey.Editor

set_option autoImplicit false

/-- Exactly the edges with the identifiers are highlighted. -/
def highlight (e : Editor) (ids : List String) : Editor := e.repaint (e.workflow.highlight ids)

/-- No edge is highlighted. -/
def clearHighlight (e : Editor) : Editor := e.highlight []

/-- The editor that shows a dry run. -/
def showRun (e : Editor) (s : Simulation) : Editor :=
  { e with simulation := some s }.highlight s.edges

/-- A dry run with the contact that a stored context describes. -/
def dryRun (e : Editor) (context : Fields) (rolls : Nat → Float) :
    Except Refusal (Editor × Simulation) := do
  let contact ← (Contact.decode context).orRefuse
  let s ← Overlong.orRefuse (e.workflow.trySimulate contact rolls e.limits.simulationSteps)
  return (e.showRun s, s)

/-- The dry run is forgotten. -/
def clearDryRun (e : Editor) : Editor := { e with simulation := none }.clearHighlight

theorem highlighted_showRun (e : Editor) (s : Simulation) {edge : Edge}
    (h : edge ∈ (e.showRun s).workflow.edges) :
    edge.data.highlighted = s.edges.contains edge.id := by
  simp only [showRun, highlight, workflow_repaint, Workflow.highlight, List.mem_map] at h
  obtain ⟨old, -, rfl⟩ := h
  rfl

end Journey.Editor
