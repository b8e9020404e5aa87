import Journey.Condition.Branch
import Journey.Config.Salvaged
import Journey.Workflow.Template

/-!
# Journey.Workflow.Restored -- a workflow from any stored document

Stored documents may be old, edited by hand or damaged.  `Workflow.restore` makes a workflow of every
document, and keeps of it what can be kept.  On the way to it texts are shown and the settings of
conditions are read, which fails when there are too many digits in them (`Workflow.tryRestore`).

Each item of the node list gives one node.  Its kind is a pause if it names none; its identifier is
trimmed, made up from its position if it is empty, and numbered on if an earlier node has it; its
settings are salvaged; a coordinate that is no number is filled in.  Each item of the edge list whose
two ends are such nodes gives one edge, with a new identifier if it has none or an earlier edge has
it.  The older branch handles `yes` and `no` of a condition become `if` and `else`, and a missing or
older label there is made anew.  Everything else of the document is trimmed or replaced by a default.
A document without nodes gives the starter template.

Main statements: a restored list has a node for each item (`length_restoreNodes`), and no two of them
have the same identifier (`nodup_ids_restoreNodes`).
-/

namespace Journey

set_option autoImplicit false

open Journey.Text (trim lower)

namespace Document

/-- The number that a document stands for, the given one if it stands for no finite number. -/
def number (fallback : Float) : Document → Float
  | .int n => (Decimal.ofInt? n).getD fallback
  | .float x => if Decimal.isFinite x then x else fallback
  | .text s => ((Decimal.freeReal? s).filter Decimal.isFinite).getD fallback
  | _ => fallback

/-- The text of a document without blanks around it. -/
def trimmed (d : Document) : String := trim d.shown

/-- The text of a document that is trimmed and not empty. -/
def trimmed? (d : Document) : Option String :=
  if d.trimmed.isEmpty then none else some d.trimmed

/-- The name that a document stands for, without regard to case. -/
def nameIn {α : Type} (named? : String → Option α) (d : Document) : Option α :=
  named? (lower d.trimmed)

end Document

namespace Fields

/-- The value under the first of two spellings that is there. -/
def getEither (row : Fields) (written other : String) : Document :=
  match get? row written with
  | some d => d
  | none => getD row other

end Fields

namespace Workflow

/-! ## Nodes -/

/-- An identifier with a number. -/
def numbered (id : String) (n : Nat) : String := id ++ "_" ++ Decimal.writeNat n

theorem numbered_inj (id : String) (m n : Nat) (h : numbered id m = numbered id n) : m = n := by
  refine Decimal.writeNat_inj (String.toList_injective ?_)
  have := congrArg String.toList h
  simpa only [numbered, String.toList_append, List.append_cancel_left_eq] using this

/-- The identifier, or the identifier with the least number from two on that is not taken. -/
def freeId (taken : List String) (id : String) : String :=
  if taken.contains id then numbered id (Text.freeNumber (numbered id) 2 taken) else id

theorem freeId_not_mem (taken : List String) (id : String) : freeId taken id ∉ taken := by
  unfold freeId
  split
  · exact Text.not_mem_freeNumber (numbered_inj id)
  · next free => simpa using free

/-- The identifier that the item at a position asks for. -/
def askedId (position : Nat) (row : Fields) : String :=
  ((Fields.getD row "id").trimmed?).getD ("node_" ++ Decimal.writeNat (position + 1))

/-- The distance between nodes without a place. -/
def nodeSpacing : Nat := 280

/-- The height of nodes without a place. -/
def nodeHeight : Float := 120.0

/-- The place of the item at a position. -/
def restorePosition (position : Nat) (d : Document) : Position :=
  { x := (Fields.getD d.fields "x").number (Float.ofNat (position * nodeSpacing))
    y := (Fields.getD d.fields "y").number nodeHeight }

/-- The counters of an item, none if there are none or they have faults. -/
def restoreCounters (d : Document) : Option Counters :=
  if d.fields.isEmpty then none else (Counters.decode d.fields).toOption

/-- The node of the item at a position, under the given identifier. -/
def restoreNode (position : Nat) (id : String) (d : Document) : Node :=
  let row := d.fields
  let kind := ((Fields.getD row "kind").nameIn NodeKind.named?).getD .wait
  { id
    title := ((Fields.getD row "title").trimmed?).getD kind.block.label
    position := restorePosition position (Fields.getD row "position")
    status := ((Fields.getD row "status").nameIn NodeStatus.named?).getD .draft
    counters := restoreCounters (Fields.getD row "meta")
    config := Config.salvage kind kind.standardConfig (Fields.getD row "config") }

/-- What is converted when the node of an item is made. -/
def nodeConversions (d : Document) : List Conversion :=
  let row := d.fields
  let kind := ((Fields.getD row "kind").nameIn NodeKind.named?).getD .wait
  [.text (Fields.getD row "kind"), .text (Fields.getD row "id"), .text (Fields.getD row "title")]
    ++ Config.salvageConversions kind (Fields.getD row "config")

/-- The nodes of the items from a position on, given the identifiers that are taken. -/
def restoreNodes (position : Nat) (taken : List String) : List Document → List Node
  | [] => []
  | d :: ds =>
      let id := freeId taken (askedId position d.fields)
      restoreNode position id d :: restoreNodes (position + 1) (taken ++ [id]) ds

@[simp] theorem length_restoreNodes (position : Nat) (taken : List String) (ds : List Document) :
    (restoreNodes position taken ds).length = ds.length := by
  induction ds generalizing position taken with
  | nil => rfl
  | cons d ds ih => simp [restoreNodes, ih]

theorem ids_restoreNodes_not_mem {position : Nat} {taken : List String} {ds : List Document}
    {n : Node} (h : n ∈ restoreNodes position taken ds) : n.id ∉ taken := by
  induction ds generalizing position taken with
  | nil => simp [restoreNodes] at h
  | cons d ds ih =>
    rcases List.mem_cons.1 h with rfl | later
    · exact freeId_not_mem taken _
    · exact fun mem => ih later (List.mem_append_left _ mem)

theorem nodup_ids_restoreNodes (position : Nat) (taken : List String) (ds : List Document) :
    ((restoreNodes position taken ds).map (·.id)).Nodup := by
  induction ds generalizing position taken with
  | nil => simp [restoreNodes]
  | cons d ds ih =>
    simp only [restoreNodes, List.map_cons, List.nodup_cons]
    refine ⟨fun mem => ?_, ih ..⟩
    obtain ⟨n, later, same⟩ := List.mem_map.1 mem
    exact ids_restoreNodes_not_mem later (List.mem_append_right _ (by simp [same, restoreNode]))

/-! ## Edges -/

/-- The branch that an older handle of a condition stands for. -/
def currentHandle (handle : String) : String :=
  if handle = "yes" then Handle.ifBranch else if handle = "no" then Handle.elseBranch else handle

/-- Whether a label is that of an older branch. -/
def isOlderLabel (label : String) : Bool := ["yes", "no"].contains (lower label)

/-- The label of a restored edge that leaves a node on a handle. -/
def restoreLabel (source : Node) (handle : Option String) (label : String) : Option String :=
  let kept := if label.isEmpty then none else some label
  match handle with
  | some h =>
      if source.isA .condition && (label.isEmpty || isOlderLabel label) then
        Condition.labelAt? source.config.clauses h
      else kept
  | none => kept

/-- The display data of a restored edge. -/
def restoreData (source : Node) (row : Fields) : EdgeData :=
  let branch := match Fields.getD row "branch" with
    | .text s => some s
    | _ => none
  { branch := if source.isA .condition then branch.map currentHandle else branch
    highlighted := !(Fields.getD row "highlighted").isVoid
    extra := Fields.without row ["branch", "highlighted"] }

/-- Whether a member is anything but the truth value false. -/
def notFalse : Document → Bool
  | .bool false => false
  | _ => true

/-- The edge of an item that leaves a node and enters the one with the identifier; its own
identifier may be empty. -/
def restoreEdge (source : Node) (target : String) (row : Fields) : Edge :=
  let handle := (Fields.getEither row "sourceHandle" "source_handle").trimmed?
  let sourceHandle := if source.isA .condition then handle.map currentHandle else handle
  { id := (Fields.getD row "id").trimmed
    source := source.id
    target
    sourceHandle
    targetHandle := (Fields.getEither row "targetHandle" "target_handle").trimmed?
    label := restoreLabel source sourceHandle (Fields.getD row "label").trimmed
    animated := notFalse (Fields.getD row "animated")
    data := restoreData source (Fields.getD row "data").fields }

/-- The edges of the items, as far as their ends are nodes; their identifiers may be empty. -/
def restoreEdges (nodes : List Node) (ds : List Document) : List Edge :=
  ds.filterMap fun d =>
    let target := (Fields.getD d.fields "target").trimmed
    match indexed? nodes (Fields.getD d.fields "source").trimmed, indexed? nodes target with
    | some source, some _ => some (restoreEdge source target d.fields)
    | _, _ => none

/-- What is converted when the edge of an item is made; one whose ends are no nodes is only reported
with its identifier. -/
def edgeConversions (nodes : List Node) (d : Document) : List Conversion :=
  let row := d.fields
  let source := Fields.getD row "source"
  let target := Fields.getD row "target"
  let kept := (indexed? nodes source.trimmed).isSome && (indexed? nodes target.trimmed).isSome
  [.text source, .text target]
    ++ (if kept then
          [.text (Fields.getEither row "sourceHandle" "source_handle"),
           .text (Fields.getEither row "targetHandle" "target_handle"),
           .text (Fields.getD row "label")] else [])
    ++ [.text (Fields.getD row "id")]

/-- The edges with new identifiers for those that have none or one that is taken. -/
def identifyEdges (taken : List String) : List Edge → Fresh (List Edge)
  | [] => return []
  | e :: es => do
      let asked := if taken.contains e.id then "" else e.id
      let e ← Edge.identify { e with id := asked }
      return e :: (← identifyEdges (taken ++ [e.id]) es)

/-! ## Workflows -/

/-- The version that a document stands for, at least one. -/
def restoreVersion (d : Document) : Int :=
  let n := ((Decimal.Binary.ofFloat (d.number 1.0)).truncated?).getD 1
  if 1 ≤ n then n else 1

/-- The workflow under the identifier that a document states, its own if it states none. -/
def underId (d : Document) (w : Workflow) : Workflow :=
  if d.isVoid then w else { w with id := d.shown }

/-- The workflow of a document; the name is used if the document has none. -/
def restore (d : Document) (fallbackName : String := untitled) : Fresh Workflow := do
  let row := d.fields
  let name := ((Fields.getD row "name").trimmed?).getD fallbackName
  match (Fields.getD row "nodes").items with
  | [] => return underId (Fields.getD row "id") (← Template.starter.create (some name))
  | items =>
      let nodes := restoreNodes 0 [] items
      let edges ← identifyEdges [] (restoreEdges nodes (Fields.getD row "edges").items)
      return underId (Fields.getD row "id")
        { id := ← Fresh.workflowId
          name
          status := ((Fields.getD row "status").nameIn WorkflowStatus.named?).getD .draft
          version := restoreVersion (Fields.getD row "version")
          nodes, edges
          settings := (Fields.getD row "settings").fields
          runtimeMap := (Fields.getEither row "runtimeMap" "runtime_map").fields }

/-- What is converted when the workflow of a document is made.  A document without nodes has no edges
either. -/
def restoreConversions (d : Document) : List Conversion :=
  let row := d.fields
  let items := (Fields.getD row "nodes").items
  let edges := if items.isEmpty then [] else (Fields.getD row "edges").items
  items.flatMap nodeConversions ++ edges.flatMap (edgeConversions (restoreNodes 0 [] items))
    ++ [.text (Fields.getD row "name"), .text (Fields.getD row "id")]

/-- The workflow of a document, once what is in it is converted. -/
def tryRestore (d : Document) (fallbackName : String := untitled) : Except Overlong (Fresh Workflow) :=
  Conversion.after (restoreConversions d) (restore d fallbackName)

end Workflow

end Journey
