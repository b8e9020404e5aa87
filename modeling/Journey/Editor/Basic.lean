import Journey.Editor.Timeline
import Journey.Limits
import Journey.Simulation
import Journey.Workflow.Connection

/-!
# Journey.Editor.Basic -- a workflow that is being edited

An editor holds a workflow and what is selected of it, together with what they were before.  It also
holds what was copied, the dry run that is shown, whether there is something to save, and when the
workflow was last saved.  Every change of the workflow raises the revision by one.

There are three ways to put a workflow in the place of the present one.  A recorded change can be
taken back (`Editor.record`); a change while a block is dragged leaves no trace in the history
(`Editor.touch`); and highlighting edges is no change at all (`Editor.repaint`).  A change that cannot
be made is refused with its reason.

Main statement: after a recorded change without a selection of its own, nothing is selected that is
not there (`selection_record`).
-/

namespace Journey

set_option autoImplicit false

/-- What is selected, in the order in which it was selected. -/
structure Selection where
  nodes : List String := []
  edges : List String := []
  deriving DecidableEq

namespace Selection

/-- One node. -/
def node (id : String) : Selection := { nodes := [id] }

/-- One edge. -/
def edge (id : String) : Selection := { edges := [id] }

/-- What is selected of a workflow. -/
def within (w : Workflow) (s : Selection) : Selection :=
  { nodes := s.nodes.filter w.hasNode, edges := s.edges.filter w.hasEdge }

def isEmpty (s : Selection) : Bool := s.nodes.isEmpty && s.edges.isEmpty

/-- Whether two lists have the same members. -/
def sameMembers (as bs : List String) : Bool := as.all bs.contains && bs.all as.contains

/-- Whether the same is selected, in whatever order. -/
def same (s t : Selection) : Bool := sameMembers s.nodes t.nodes && sameMembers s.edges t.edges

/-- Whether everything selected is there. -/
def IsIn (w : Workflow) (s : Selection) : Prop :=
  (∀ id ∈ s.nodes, id ∈ w.nodeIds) ∧ ∀ id ∈ s.edges, id ∈ w.edgeIds

theorem isIn_within (w : Workflow) (s : Selection) : (s.within w).IsIn w := by
  simp [IsIn, within, Workflow.hasNode, Workflow.hasEdge]

end Selection

/-- Nodes and the edges between them, apart from their workflow. -/
structure Clip where
  nodes : List Node := []
  edges : List Edge := []

/-- A workflow and what is selected of it. -/
structure Canvas where
  workflow : Workflow
  selection : Selection := {}

/-- A point of time, in microseconds. -/
abbrev Instant := Int

/-- A workflow that is being edited. -/
structure Editor where
  limits : Limits := {}
  timeline : Timeline Canvas
  clipboard : Option Clip := none
  /-- Whether there are changes that are not saved. -/
  dirty : Bool := false
  revision : Nat := 0
  /-- When the workflow was last saved, if it ever was. -/
  savedAt : Option Instant := none
  simulation : Option Simulation := none

/-- Why a change is refused. -/
inductive Refusal where
  | unknownNode (id : String)
  | unknownEdge (id : String)
  | unknownKind (kind : String)
  | unknownPatchFields (names : List String)
  | unknownNodeStatus (status : Document)
  | unknownWorkflowStatus (status : Document)
  | secondTrigger
  | triggerInserted
  | nodeIdInUse (id : String)
  | edgeIdInUse (id : String)
  /-- A document that belongs to the change has faults. -/
  | faulty (places : List Place)
  | rejected (reason : Rejection)
  /-- Digits that the change reads or writes are too many. -/
  | overlong (cause : Overlong)
  /-- The identifier of a clause is a list or an object. -/
  | clauseIdCompound (id : Document)
  /-- The workflow could not be stored. -/
  | notStored (cause : String)

namespace Refusal

/-- What the user is told. -/
def message : Refusal → String
  | .unknownNode id => "Unknown node: " ++ id
  | .unknownEdge id => "Unknown edge: " ++ id
  | .unknownKind kind => "Unknown node type: " ++ kind
  | .unknownPatchFields names => "Cannot patch node field(s): " ++ ", ".intercalate names
  | .unknownNodeStatus status => status.inner ++ " is not a valid NodeStatus"
  | .unknownWorkflowStatus status => status.inner ++ " is not a valid WorkflowStatus"
  | .secondTrigger => "This workflow already has a trigger block."
  | .triggerInserted => "Trigger blocks cannot be inserted after another block."
  | .nodeIdInUse id => "Node id already in use: " ++ id
  | .edgeIdInUse id => "Edge id already in use: " ++ id
  | .faulty places => "; ".intercalate (places.map fun p => ".".intercalate p)
  | .rejected reason => reason.message
  | .overlong cause => cause.message
  | .clauseIdCompound id =>
      "unhashable type: '" ++ (if id.isObject then "dict" else "list") ++ "'"
  | .notStored cause => cause

/-- The refusal that names a document, or the one that there are too many digits in it to name it. -/
def naming (d : Document) (r : Refusal) : Refusal :=
  if d.hasLong then .overlong .written else r

end Refusal

/-- The value of a check, refused if it has faults. -/
def Checked.orRefuse {α : Type} : Checked α → Except Refusal α
  | .valid a => .ok a
  | .faulty places => .error (.faulty places)

/-- A result that is refused if digits on the way to it are too many. -/
def Overlong.orRefuse {α : Type} (x : Except Overlong α) : Except Refusal α := x.mapError .overlong

theorem Overlong.orRefuse_eq_ok_iff {α : Type} {x : Except Overlong α} {a : α} :
    orRefuse x = .ok a ↔ x = .ok a :=
  mapError_eq_ok_iff

/-- Conversions, refused if one of them fails. -/
def Conversion.orRefuse (cs : List Conversion) : Except Refusal Unit :=
  Overlong.orRefuse (after cs ())

theorem Conversion.orRefuse_eq_ok_iff {cs : List Conversion} {u : Unit} :
    orRefuse cs = .ok u ↔ Succeed cs :=
  Overlong.orRefuse_eq_ok_iff.trans (after_eq_ok_iff.trans (and_iff_left rfl))

/-- A change that draws new identifiers. -/
abbrev Edit := ExceptT Refusal Fresh

/-- A change that draws none. -/
def Edit.of {α : Type} (x : Except Refusal α) : Edit α := ExceptT.mk (pure x)

/-- The edge of a connection, refused by the first rule it breaks. -/
def Connection.draw (c : Connection) (nodes : List Node) (edges : List Edge) : Edit Edge := do
  Edit.of (Conversion.orRefuse (c.conversions nodes edges))
  match c.connect nodes edges with
  | .ok edge => liftM edge
  | .error reason => throw (.rejected reason)

namespace Editor

/-- An editor that opens a workflow. -/
def ofWorkflow (w : Workflow) (limits : Limits := {}) : Editor :=
  { limits, timeline := { present := { workflow := w } } }

/-- The workflow that is edited. -/
def workflow (e : Editor) : Workflow := e.timeline.present.workflow

/-- What is selected. -/
def selection (e : Editor) : Selection := e.timeline.present.selection

/-- The events of the dry run that is shown. -/
def events (e : Editor) : List Event :=
  match e.simulation with
  | some s => s.events
  | none => []

/-- How many changes can be taken back. -/
def depth (e : Editor) : Nat := e.timeline.past.length

/-- Whether a change can be taken back. -/
def canUndo (e : Editor) : Bool := !e.timeline.past.isEmpty

/-- Whether a change that was taken back can be made again. -/
def canRedo (e : Editor) : Bool := !e.timeline.future.isEmpty

/-- A change that can be taken back; what is no longer there is no longer selected, unless the change
selects something of its own. -/
def record (e : Editor) (w : Workflow) (selection : Option Selection := none) : Editor :=
  { e with
    timeline := e.timeline.record e.limits.history
      { workflow := w, selection := selection.getD (e.selection.within w) }
    dirty := true
    revision := e.revision + 1 }

/-- A change that leaves no trace in the history. -/
def touch (e : Editor) (w : Workflow) : Editor :=
  { e with
    timeline := e.timeline.replace { workflow := w, selection := e.selection }
    dirty := true
    revision := e.revision + 1 }

/-- The same workflow in another light. -/
def repaint (e : Editor) (w : Workflow) : Editor :=
  { e with timeline := e.timeline.replace { workflow := w, selection := e.selection } }

@[simp] theorem workflow_record (e : Editor) (w : Workflow) (s : Option Selection) :
    (e.record w s).workflow = w := rfl

@[simp] theorem workflow_touch (e : Editor) (w : Workflow) : (e.touch w).workflow = w := rfl

@[simp] theorem workflow_repaint (e : Editor) (w : Workflow) : (e.repaint w).workflow = w := rfl

theorem selection_record (e : Editor) (w : Workflow) : (e.record w).selection.IsIn w :=
  Selection.isIn_within w e.selection

/-- Another selection; it is no change. -/
def select (e : Editor) (s : Selection) : Editor :=
  if s.same e.selection then e
  else { e with timeline := e.timeline.replace { e.timeline.present with selection := s } }

/-- Another workflow in the place of this one; nothing of it is selected, and no dry run is shown. -/
def load (e : Editor) (w : Workflow) (keepHistory markDirty : Bool) : Editor :=
  let timeline := e.timeline.replace { workflow := w }
  { e with
    timeline := if keepHistory then timeline else timeline.forget
    simulation := none
    dirty := markDirty
    revision := e.revision + 1 }

/-! ## Taking back -/

/-- The last recorded change is taken back, if there is one. -/
def undo? (e : Editor) : Option Editor :=
  (e.timeline.back? e.limits.history).map fun timeline =>
    { e with timeline, dirty := true, revision := e.revision + 1 }

/-- The change that was taken back last is made again, if there is one. -/
def redo? (e : Editor) : Option Editor :=
  (e.timeline.forth? e.limits.history).map fun timeline =>
    { e with timeline, dirty := true, revision := e.revision + 1 }

theorem timeline_redo?_of_undo? {e f : Editor} (within : e.timeline.Within e.limits.history)
    (h : e.undo? = some f) : ∃ g, f.redo? = some g ∧ g.timeline = e.timeline := by
  simp only [undo?, Option.map_eq_some_iff] at h
  obtain ⟨t, back, rfl⟩ := h
  exact ⟨{ e with dirty := true, revision := e.revision + 1 + 1 },
    by simp [redo?, Timeline.forth?_of_back? within back], rfl⟩

theorem timeline_undo?_of_redo? {e f : Editor} (within : e.timeline.Within e.limits.history)
    (h : e.redo? = some f) : ∃ g, f.undo? = some g ∧ g.timeline = e.timeline := by
  simp only [redo?, Option.map_eq_some_iff] at h
  obtain ⟨t, forth, rfl⟩ := h
  exact ⟨{ e with dirty := true, revision := e.revision + 1 + 1 },
    by simp [undo?, Timeline.back?_of_forth? within forth], rfl⟩

end Editor

end Journey
