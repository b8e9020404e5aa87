import Journey.Editor.Clipboard
import Journey.Editor.Config
import Journey.Editor.DryRun
import Journey.Editor.Insertion
import Journey.Editor.Saving

/-!
# Journey.Editor.Command -- everything that can be done with an editor

A command is one thing a user asks of an editor.  It has an answer, or it is refused, and in both
cases there is an editor afterwards.  A session is a list of commands carried out one after the other
(`Editor.performAll`).

Main statement: a refused command leaves the editor as it was, unless it is a batch of moves
(`perform_of_refused`).
-/

namespace Journey

set_option autoImplicit false

/-- What is asked of an editor. -/
inductive Command where
  | load (w : Workflow) (keepHistory markDirty : Bool)
  | replace (w : Workflow) (selection : Selection)
  /-- Another name, status or version. -/
  | describe (name : Option String) (status : Document) (version : Option Int)
  | select (selection : Selection)
  /-- A new block of the kind that a document names. -/
  | addNew (kind : Document) (position : Fields) (title : Document) (config : Option Document)
  | addNode (n : Node)
  | patchNode (id : String) (patch : Fields)
  | patchConfig (id : String) (patch : Fields)
  | moveNode (id : String) (position : Document)
  | removeNode (id : String)
  | connect (c : Connection)
  | addEdge (edge : Edge)
  | reconnect (id : String) (c : Connection)
  | removeEdge (id : String)
  | removeSelection
  | applyNodeChanges (changes : List NodeChange)
  | applyEdgeChanges (removed : List String)
  | copy
  | paste
  | undo
  | redo
  | autoLayout
  | insertAfter (source : String) (handle : Option String) (kind title : Document)
      (config : Option Document)
  /-- A dry run with the contact that a stored context describes. -/
  | dryRun (context : Fields) (rolls : Nat → Float)
  | clearDryRun
  | highlight (edges : List String)
  | clearHighlight
  | snapshot
  /-- The workflow is stored now. -/
  | save (store : SaveSnapshot → Except String Unit) (now : Instant)
  /-- The workflow was stored, at the given time or else now. -/
  | markSaved (stated : Option Instant) (now : Instant)

/-- The answer to a command. -/
inductive Answer where
  | done
  | node (n : Node)
  | edge (e : Edge)
  | clip (c : Option Clip)
  /-- Whether there was something to do. -/
  | happened (b : Bool)
  | simulation (s : Simulation)
  | snapshot (s : SaveSnapshot)
  | saved (s : SaveSnapshot)

/-- The editor after a command, and the answer or the reason for the refusal. -/
structure Outcome where
  editor : Editor
  answer : Except Refusal Answer

namespace Outcome

/-- The outcome of a command that is refused or changes the editor. -/
def ofChange {α : Type} (e : Editor) (answer : α → Answer) : Except Refusal (Editor × α) → Outcome
  | .ok (f, a) => ⟨f, .ok (answer a)⟩
  | .error refusal => ⟨e, .error refusal⟩

/-- The outcome of a command that has nothing to answer. -/
def ofDone (e : Editor) (x : Except Refusal Editor) : Outcome :=
  ofChange e (fun _ => .done) (x.map fun f => (f, ()))

theorem editor_ofChange_of_refused {α : Type} {e : Editor} {answer : α → Answer}
    {x : Except Refusal (Editor × α)} {refusal : Refusal}
    (h : (ofChange e answer x).answer = .error refusal) : (ofChange e answer x).editor = e := by
  cases x with
  | ok fa => simp [ofChange] at h
  | error r => rfl

theorem editor_ofDone_of_refused {e : Editor} {x : Except Refusal Editor} {refusal : Refusal}
    (h : (ofDone e x).answer = .error refusal) : (ofDone e x).editor = e :=
  editor_ofChange_of_refused h

/-- The outcome of a command that may have nothing to do. -/
def ofStep (e : Editor) : Option Editor → Outcome
  | some f => ⟨f, .ok (.happened true)⟩
  | none => ⟨e, .ok (.happened false)⟩

end Outcome

namespace Editor

/-- The status that a document names; a document that holds nothing names the given one. -/
def readStatus (status : WorkflowStatus) (d : Document) : Except Refusal WorkflowStatus :=
  match Checked.orNull (.choice WorkflowStatus.named?) d with
  | .valid named => .ok (named.getD status)
  | .faulty _ => .error (.naming d (.unknownWorkflowStatus d))

/-- Another name, status and version, as far as they are given. -/
def describe (e : Editor) (name : Option String) (status : Document) (version : Option Int) :
    Except Refusal Editor := do
  let w := e.workflow
  let status ← readStatus w.status status
  return e.record { w with name := name.getD w.name, status, version := version.getD w.version }

/-- A new block of the kind that a document names. -/
def addNewOf (e : Editor) (kind : Document) (position : Fields) (title : Document)
    (config : Option Document) : Edit (Editor × Node) := do
  e.addNew { kind := ← Edit.of (NodeKind.require kind), position, title, config }

/-- The outcome of a command. -/
def perform (e : Editor) : Command → Fresh Outcome
  | .load w keepHistory markDirty => return ⟨e.load w keepHistory markDirty, .ok .done⟩
  | .replace w selection => return ⟨e.record w (some selection), .ok .done⟩
  | .describe name status version => return .ofDone e (e.describe name status version)
  | .select selection => return ⟨e.select selection, .ok .done⟩
  | .addNew kind position title config =>
      return .ofChange e .node (← (e.addNewOf kind position title config).run)
  | .addNode n => return .ofChange e .node (e.addNode n)
  | .patchNode id patch => return .ofChange e .node (e.patchNode id patch)
  | .patchConfig id patch => return .ofChange e .node (e.patchConfig id patch)
  | .moveNode id position => return .ofDone e (e.moveNode id position)
  | .removeNode id => return .ofDone e (e.removeNode id)
  | .connect c => return .ofChange e .edge (← (e.connect c).run)
  | .addEdge edge => return .ofChange e .edge (e.addEdge edge)
  | .reconnect id c => return .ofChange e .edge (← (e.reconnect id c).run)
  | .removeEdge id => return .ofDone e (e.removeEdge id)
  | .removeSelection => return ⟨e.removeSelection, .ok .done⟩
  | .applyNodeChanges changes =>
      let (f, result) := e.applyNodeChanges changes
      return ⟨f, result.map fun _ => .done⟩
  | .applyEdgeChanges removed => return ⟨e.applyEdgeChanges removed, .ok .done⟩
  | .copy => let (f, clip) := e.copy; return ⟨f, .ok (.clip clip)⟩
  | .paste => do let (f, clip) ← e.paste; return ⟨f, .ok (.clip clip)⟩
  | .undo => return .ofStep e e.undo?
  | .redo => return .ofStep e e.redo?
  | .autoLayout => return .ofDone e e.autoLayout
  | .insertAfter source handle kind title config =>
      return .ofChange e .node (← (e.insertAfter source handle kind title config).run)
  | .dryRun context rolls => return .ofChange e .simulation (e.dryRun context rolls)
  | .clearDryRun => return ⟨e.clearDryRun, .ok .done⟩
  | .highlight edges => return ⟨e.highlight edges, .ok .done⟩
  | .clearHighlight => return ⟨e.clearHighlight, .ok .done⟩
  | .snapshot => return ⟨e, e.saveSnapshot.map .snapshot⟩
  | .save store now => return .ofChange e .saved (e.save store now)
  | .markSaved stated now => return ⟨e.markSaved stated now, .ok .done⟩

theorem perform_of_refused {e : Editor} {c : Command} {ids : IdSource} {refusal : Refusal}
    (noBatch : ∀ changes, c ≠ .applyNodeChanges changes)
    (h : ((e.perform c).run ids).1.answer = .error refusal) :
    ((e.perform c).run ids).1.editor = e := by
  cases c with
  | applyNodeChanges changes => exact absurd rfl (noBatch changes)
  | addNew | addNode | patchNode | patchConfig | connect | addEdge | reconnect | insertAfter | dryRun
  | save => exact Outcome.editor_ofChange_of_refused h
  | describe | moveNode | removeNode | removeEdge | autoLayout =>
    exact Outcome.editor_ofDone_of_refused h
  | undo =>
    cases undone : e.undo? <;> simp [perform, undone, Outcome.ofStep] at h
  | redo =>
    cases redone : e.redo? <;> simp [perform, redone, Outcome.ofStep] at h
  | snapshot => rfl
  | _ => simp [perform] at h

/-- The outcomes of commands that are carried out one after the other. -/
def performAll (e : Editor) : List Command → Fresh (List Outcome)
  | [] => return []
  | c :: cs => do
      let outcome ← e.perform c
      return outcome :: (← outcome.editor.performAll cs)

end Editor

end Journey
