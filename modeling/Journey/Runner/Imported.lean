import Journey.Node.Create
import Journey.Runner.Step
import Journey.Workflow.Restored

/-!
# Journey.Runner.Imported -- workflows from flows

Records that were saved before there were workflows hold only a flow, and a workflow is made from it:
a trigger, a node for each step in its order, and an exit, each joined to the next.  A condition is
joined by two edges, and one whose action is to stop leads to the exit.  Stops have no node.

The items of a stored flow are read leniently: what is no step is left out, and what is missing in a
step is filled in.  Only a pause whose length is an integer beyond every double is refused
(`DurationTooLarge`), and a document that is wanted as a text and cannot be shown (`ImportFailure`).
A record that holds a workflow in its settings gives that one.

Main statement: what is imported is the workflow of the flow (`tryOfFlow_eq_ok_iff`).
-/

namespace Journey

set_option autoImplicit false

/-- The length of a pause is an integer beyond every double. -/
inductive DurationTooLarge where
  | durationTooLarge
  deriving DecidableEq

/-- What is said of a length beyond every double. -/
def DurationTooLarge.message (_ : DurationTooLarge) : String :=
  "int too large to convert to float"

/-- Why a stored flow cannot be imported. -/
inductive ImportFailure where
  | duration (cause : DurationTooLarge)
  | overlong (cause : Overlong)

/-- What is said of a flow that cannot be imported. -/
def ImportFailure.message : ImportFailure → String
  | .duration cause => cause.message
  | .overlong cause => cause.message

namespace Document

/-- The text of a document, empty if the document is void. -/
def textOrEmpty (d : Document) : String := if d.isVoid then "" else d.display

@[simp] theorem textOrEmpty_text (s : String) : textOrEmpty (.text s) = s := by
  by_cases void : s = "" <;> simp [textOrEmpty, isVoid, void, display]

end Document

namespace Action

/-- The length of a pause that a document stands for, one if it stands for none. -/
def readDuration (d : Document) : Except DurationTooLarge Float :=
  if d.isVoid then .ok 1.0
  else match d with
    | .float x => .ok x
    | .int n =>
        match Decimal.ofInt? n with
        | some x => .ok x
        | none => .error .durationTooLarge
    | .bool _ => .ok 1.0
    | .text s => .ok ((Decimal.freeReal? s).getD 1.0)
    | _ => .ok 1.0

/-- The unit of a pause that a document stands for, days if it stands for none. -/
def readUnit (d : Document) : WaitUnit := (WaitUnit.named? d.textOrEmpty).getD .days

/-- What follows a test: the end exactly if that is said. -/
def readVerdict (d : Document) : Verdict :=
  match d with
  | .text "stop" => .halt
  | _ => .goOn

/-- What a step of a type does, none if there is no such type. -/
def read? (typeName : Document) (row : Fields) : Option (Except DurationTooLarge Action) :=
  let text (key : String) : String := (Fields.getD row key).textOrEmpty
  match typeName with
  | .text "send_email" => some <| .ok <| .sendEmail
      { senderConfigId := text "sender_config_id", templateId := text "template_id"
        subject := text "subject", body := text "body"
        threadWithPrevious := Workflow.notFalse (Fields.getD row "thread_with_previous") }
  | .text "wait" => some <|
      (readDuration (Fields.getD row "duration")).map fun duration =>
        .wait (some duration) (readUnit (Fields.getD row "unit"))
  | .text "condition" => some <| .ok <| .condition
      ((RunnerRule.named? (text "rule")).getD .hasReplied) (text "value")
      (readVerdict (Fields.getD row "if_true")) (readVerdict (Fields.getD row "if_false"))
  | .text "stop" => some (.ok .stop)
  | _ => none

/-- What is shown of the settings of a step of a type. -/
def conversions (typeName : Document) (row : Fields) : List Conversion :=
  let text (key : String) : Conversion := .text (Fields.getD row key)
  match typeName with
  | .text "send_email" => [text "subject", text "body", text "sender_config_id", text "template_id"]
  | .text "wait" => [text "unit"]
  | .text "condition" => [text "value"]
  | _ => []

end Action

namespace Step

/-- What is shown of an item before its settings are read: its identifier and name, and its type if
there is no such type. -/
def headConversions (d : Document) : List Conversion :=
  match d with
  | .object row =>
      let known := Action.read? (Fields.getD row "type") (Fields.getD row "config").fields
      [.text (Fields.getD row "id"), .text (Fields.getD row "name")]
        ++ (if known.isNone then [.text (Fields.getD row "type")] else [])
  | _ => []

/-- Why the settings of an item cannot be read. -/
def failure? (d : Document) : Option ImportFailure :=
  match d with
  | .object row =>
      let type := Fields.getD row "type"
      let settings := (Fields.getD row "config").fields
      match Conversion.firstFailure? (Action.conversions type settings),
          Action.read? type settings with
      | some o, _ => some (.overlong o)
      | none, some (.error e) => some (.duration e)
      | none, _ => none
  | _ => none

/-- The step that an item stands for; its identifier may be empty. -/
def read? (d : Document) : Option (Except DurationTooLarge Step) :=
  match d with
  | .object row =>
      (Action.read? (Fields.getD row "type") (Fields.getD row "config").fields).map fun action =>
        action.map fun action =>
          { id := (Fields.getD row "id").textOrEmpty
            name := (Fields.getD row "name").textOrEmpty, action }
  | _ => none

/-- The step with a new identifier if it has none. -/
def identify (s : Step) : Fresh Step := do
  return { s with id := ← Fresh.orElse s.id (Fresh.nodeId "step") }

/-- The settings of the node of a step. -/
def settings (a : Action) : Config :=
  match a with
  | .sendEmail m => .sendEmail
      { subject := m.subject, body := m.body, senderConfigId := some m.senderConfigId
        templateId := some m.templateId, personalizationTokens := NodeKind.standardTokens
        threadWithPrevious := m.threadWithPrevious }
  | .wait duration unit => .wait
      { duration := some (duration.getD 1.0), unit, randomMaxMinutes := some 0
        timeWindowStart := some "09:00", timeWindowEnd := some "18:00" }
  | .condition rule value _ _ => .condition { clauses := [rule.clause value] }
  | .stop => .exit {}

/-- The node of a step. -/
def node (s : Step) (position : Position) : Node :=
  let config := settings s.action
  { id := s.id, title := if s.name.isEmpty then config.kind.block.label else s.name
    position, config }

/-- Where the edge of a branch leads. -/
def branchTarget (v : Verdict) (next exit : String) : String :=
  match v with
  | .goOn => next
  | .halt => exit

/-- An edge on a handle; its identifier is empty. -/
def branchEdge (source target handle label : String) : Edge :=
  { id := "", source, target, sourceHandle := some handle, label := some label
    data := { branch := some handle } }

/-- The edges that leave the node of a step; their identifiers are empty. -/
def edges (s : Step) (next exit : String) : List Edge :=
  match s.action with
  | .condition _ _ ifTrue ifFalse =>
      [branchEdge s.id (branchTarget ifTrue next exit) Handle.ifBranch "If",
       branchEdge s.id (branchTarget ifFalse next exit) Handle.elseBranch "Else"]
  | _ => [{ id := "", source := s.id, target := next }]

end Step

namespace Flow

/-- The steps that a stored flow stands for; their identifiers may be empty. -/
def read (items : List Document) : Except DurationTooLarge (List Step) :=
  (items.filterMap Step.read?).mapM id

/-- The height of the nodes of an imported flow. -/
def rowHeight : Float := 120.0

/-- The place of the node of the step at a position. -/
def place (position : Nat) : Position := ⟨Float.ofNat (420 + position * 280), rowHeight⟩

/-- The nodes of the steps from a position on. -/
def nodes (position : Nat) : Flow → List Node
  | [] => []
  | s :: rest => s.node (place position) :: nodes (position + 1) rest

/-- The edges that leave the nodes of the steps. -/
def edges (exit : String) : Flow → List Edge
  | [] => []
  | s :: rest => s.edges ((rest.head?.map (·.id)).getD exit) exit ++ edges exit rest

/-- The workflow of steps that are no stops, between a trigger and an exit. -/
def workflow (f : Flow) (trigger exit : String) : Workflow :=
  let first : Node :=
    { id := trigger, title := NodeKind.trigger.block.label, position := ⟨120.0, rowHeight⟩
      config := .trigger {} }
  let last : Node :=
    { id := exit, title := NodeKind.exit.block.label, position := place f.length, config := .exit {} }
  { id := ""
    nodes := first :: Flow.nodes 0 f ++ [last]
    edges := { id := "", source := trigger, target := (f.head?.map (·.id)).getD exit }
      :: Flow.edges exit f }

/-- The new workflow of a flow, under the identifier, name and status that are given. -/
def toWorkflow (f : Flow) (id name : String) (status : WorkflowStatus) : Fresh Workflow := do
  let steps ← (f.filter fun s => !s.action.isStop).mapM Step.identify
  let w := Flow.workflow steps (← Fresh.nodeId NodeKind.trigger.name)
    (← Fresh.nodeId NodeKind.exit.name)
  return { w with
    edges := ← w.edges.mapM Edge.identify
    id := ← Fresh.orElse id Fresh.workflowId
    name := if name.isEmpty then untitled else name
    status }

end Flow

namespace Workflow

/-- The status that a document names, draft if it names none. -/
def readStatus (d : Document) : WorkflowStatus :=
  (WorkflowStatus.named? d.textOrEmpty).getD .draft

/-- The workflow of a stored flow. -/
def ofFlow (flow : Document) (id name : String) (status : Document) :
    Except DurationTooLarge (Fresh Workflow) :=
  (Flow.read flow.items).map fun f => Flow.toWorkflow f id name (readStatus status)

/-- The workflow of a stored flow, once what is in it is read: the heads of all items, and then their
settings. -/
def tryOfFlow (flow : Document) (id name : String) (status : Document) :
    Except ImportFailure (Fresh Workflow) :=
  match Conversion.firstFailure? (flow.items.flatMap Step.headConversions) with
  | some o => .error (.overlong o)
  | none =>
      match flow.items.findSome? Step.failure? with
      | some e => .error e
      | none => (ofFlow flow id name status).mapError .duration

theorem tryOfFlow_eq_ok_iff {flow : Document} {id name : String} {status : Document}
    {make : Fresh Workflow} :
    tryOfFlow flow id name status = .ok make ↔
      Conversion.Succeed (flow.items.flatMap Step.headConversions)
        ∧ (∀ d ∈ flow.items, Step.failure? d = none) ∧ ofFlow flow id name status = .ok make := by
  rw [← Conversion.firstFailure?_eq_none_iff, ← List.findSome?_eq_none_iff, tryOfFlow]
  cases Conversion.firstFailure? (flow.items.flatMap Step.headConversions) with
  | some o => simp
  | none =>
    cases flow.items.findSome? Step.failure? with
    | some e => simp
    | none => simp [mapError_eq_ok_iff]

/-- The key under which the settings of a record hold a workflow. -/
def settingsKey : String := "workflow_graph"

/-- The workflow of a stored record: the one in its settings, or that of its flow. -/
def ofRecord (record : Fields) : Except ImportFailure (Fresh Workflow) :=
  let stored := Fields.getD (Fields.getD record "settings").fields settingsKey
  let stated := Fields.getD record "name"
  let name := if stated.textOrEmpty.isEmpty then untitled else stated.textOrEmpty
  if stated.hasLong then .error (.overlong .written)
  else if stored.isVoid then
    tryOfFlow (Fields.getD record "flow") (Fields.getD record "id").textOrEmpty name
      (Fields.getD record "status")
  else (tryRestore stored name).mapError .overlong

/-- The settings of a record with the workflow put in. -/
def inSettings (w : Workflow) (settings : Fields) : Fields :=
  Fields.set settings settingsKey w.document

end Workflow

end Journey
