import Journey.Editor.Basic
import Journey.Node.Create
import Journey.Workflow.Change

/-!
# Journey.Editor.Nodes -- adding, changing and removing blocks

A block is added if it leaves the workflow with one trigger and its identifier is new.  Its title,
place, status and counters are changed by a patch, which is refused as a whole if one of its members
is wrong or unknown.  While a block is dragged its place changes without a trace in the history.

The canvas reports moves and removals in batches.  A batch with a removal is one recorded change; a
batch of moves alone leaves no trace, and when one of its places is wrong, the moves before it have
happened.
-/

namespace Journey

set_option autoImplicit false

/-- The place that a document stands for; a void document is the origin. -/
def Position.read (d : Document) : Checked Position :=
  if d.isVoid then decode [] else Checked.object decode d

/-- The kind that a document names. -/
def NodeKind.ofDocument? : Document → Option NodeKind
  | .text s => NodeKind.named? s
  | _ => none

/-- The kind that a document names, refused if it names none. -/
def NodeKind.require (d : Document) : Except Refusal NodeKind :=
  match NodeKind.ofDocument? d with
  | some k => .ok k
  | none => .error (.naming d (.unknownKind d.display))

namespace NodeRequest

/-- The new node, refused if the request has faults. -/
def draw (r : NodeRequest) : Edit Node := do
  Edit.of (Conversion.orRefuse r.conversions)
  match r.create with
  | .valid node => liftM node
  | .faulty places => throw (.faulty places)

end NodeRequest

namespace Node

/-- The members of a node that a patch may change. -/
def patchable : List String := ["title", "position", "status", "meta"]

/-- The node with the title of the patch. -/
def retitle (patch : Fields) (n : Node) : Except Refusal Node :=
  match Fields.get? patch "title" with
  | some d => (Conversion.orRefuse [.text d]).map fun _ => { n with title := d.display }
  | none => .ok n

/-- The node in the place of the patch. -/
def reposition (patch : Fields) (n : Node) : Except Refusal Node :=
  match Fields.get? patch "position" with
  | some d => (Position.read d).orRefuse.map fun position => { n with position }
  | none => .ok n

/-- The node with the status of the patch. -/
def restatus (patch : Fields) (n : Node) : Except Refusal Node :=
  match Fields.get? patch "status" with
  | some d =>
      match (Checked.choice NodeStatus.named? d).toOption with
      | some status => .ok { n with status }
      | none => .error (.naming d (.unknownNodeStatus d))
  | none => .ok n

/-- The node with the counters of the patch. -/
def recount (patch : Fields) (n : Node) : Except Refusal Node :=
  match Fields.get? patch "meta" with
  | some d =>
      (Checked.orNull (.object Counters.decode) d).orRefuse.map fun counters => { n with counters }
  | none => .ok n

/-- The node with the members of the patch. -/
def patched (patch : Fields) (n : Node) : Except Refusal Node := do
  recount patch (← restatus patch (← reposition patch (← n.retitle patch)))

end Node

/-- What the canvas reports of a node. -/
inductive NodeChange where
  | moved (id : String) (position : Document)
  | removed (id : String)
  /-- Something that is no change of the workflow. -/
  | shown

namespace NodeChange

/-- The report of a type, with the place it names if it names one. -/
def ofType (type id : String) (position : Document) : NodeChange :=
  if type = "remove" then .removed id
  else if type = "position" && !position.isNull then .moved id position
  else .shown

def isRemoval : NodeChange → Bool
  | .removed _ => true
  | _ => false

/-- The workflow after what is reported, and whether it changed; edges are left alone. -/
def apply (w : Workflow) : NodeChange → Except Refusal (Workflow × Bool)
  | .shown => .ok (w, false)
  | .removed id =>
      .ok ({ w with nodes := w.nodes.filter fun n => n.id != id }, w.hasNode id)
  | .moved id d =>
      (Position.read d).orRefuse.map fun position =>
        match w.node? id with
        | some n =>
            if n.position.agrees position then (w, false)
            else (w.updateNode id fun n => { n with position }, true)
        | none => (w, false)

/-- How far a batch comes: the workflow it leaves, whether that changed, and why it ended early. -/
structure Progress where
  workflow : Workflow
  changed : Bool := false
  refusal : Option Refusal := none

/-- The batch from a point on. -/
def applyAll (p : Progress) : List NodeChange → Progress
  | [] => p
  | c :: cs =>
      match c.apply p.workflow with
      | .ok (w, changed) => applyAll { p with workflow := w, changed := p.changed || changed } cs
      | .error refusal => { p with refusal := some refusal }

end NodeChange

namespace Editor

/-- The node with an identifier. -/
def requireNode (e : Editor) (id : String) : Except Refusal Node :=
  match e.workflow.node? id with
  | some n => .ok n
  | none => .error (.unknownNode id)

/-- A node at the end of the list, which is then selected. -/
def addNode (e : Editor) (n : Node) : Except Refusal (Editor × Node) :=
  if n.isA .trigger && e.workflow.trigger?.isSome then .error .secondTrigger
  else if e.workflow.hasNode n.id then .error (.nodeIdInUse n.id)
  else .ok (e.record (e.workflow.addNode n) (some (.node n.id)), n)

/-- A new node at the end of the list, which is then selected. -/
def addNew (e : Editor) (r : NodeRequest) : Edit (Editor × Node) := do
  Edit.of (e.addNode (← r.draw))

/-- A node with the members of a patch. -/
def patchNode (e : Editor) (id : String) (patch : Fields) : Except Refusal (Editor × Node) :=
  match (Fields.keys patch).filter fun k => !Node.patchable.contains k with
  | [] => do
      let n ← (← e.requireNode id).patched patch
      return (e.record (e.workflow.updateNode id fun _ => n), n)
  | unknown => .error (.unknownPatchFields (unknown.mergeSort fun a b => a ≤ b))

/-- A node in another place, without a trace in the history. -/
def moveNode (e : Editor) (id : String) (d : Document) : Except Refusal Editor := do
  let n ← e.requireNode id
  let position ← (Position.read d).orRefuse
  return if n.position.agrees position then e
    else e.touch (e.workflow.updateNode id fun n => { n with position })

/-- A node and its edges are removed. -/
def removeNode (e : Editor) (id : String) : Except Refusal Editor := do
  let _ ← e.requireNode id
  return e.record (e.workflow.withoutNodes [id])

/-- What is selected is removed, and the edges of the nodes that are. -/
def removeSelection (e : Editor) : Editor :=
  if e.selection.isEmpty then e
  else e.record ((e.workflow.withoutNodes e.selection.nodes).withoutEdges e.selection.edges)
    (some {})

/-- A batch of what the canvas reports, and why it was refused if it was. -/
def applyNodeChanges (e : Editor) (cs : List NodeChange) : Editor × Except Refusal Unit :=
  let recorded := cs.any (·.isRemoval)
  let p := NodeChange.applyAll { workflow := e.workflow } cs
  match p.refusal with
  | some refusal => (if recorded then e else e.repaint p.workflow, .error refusal)
  | none =>
      (if !p.changed then e
        else if recorded then e.record p.workflow.withoutLooseEdges
        else e.touch p.workflow, .ok ())

end Editor

end Journey
