import Journey.Condition.Outcome
import Journey.Node.Catalogue
import Journey.Runner.Step
import Journey.Workflow.Basic

/-!
# Journey.Runner.Compiled -- flows from workflows

A workflow is turned into a flow by walking along it from its trigger and writing a step for each node
on the way.  Not everything can be said in a flow, and what is lost is reported: an advisory when the
flow still does something sensible, a fatal finding when the walk had to end early.  The flow always
ends in a stop.

At most nodes the walk takes the first edge.  At a condition it looks at the edges of the first clause
and of the fall-through: where one of them is missing or leads to an exit, the runner stops on that
outcome.  When both go on, they have to go on to the same node.  The walk ends at an exit, at a node
without edge, at a node the runner cannot execute, at a node it has seen before, at an edge to no
node, and after as many nodes as it is allowed.  The conditions that get a step are read, and where
one cannot be read there is no flow (`Workflow.tryCompile`).

Main statement: every flow ends in its only stop (`steps_walk`).
-/

namespace Journey

set_option autoImplicit false

open Journey.Text (lower)

/-- How bad a finding is. -/
inductive Severity where
  | fatal
  | advisory
  deriving DecidableEq

namespace Severity

def name : Severity → String
  | .fatal => "fatal"
  | .advisory => "advisory"

end Severity

/-- Why a clause cannot be tested by the runner as it is. -/
inductive Unsupported where
  | rule (r : Rule)
  | property (key : String)
  deriving DecidableEq

namespace Unsupported

def message : Unsupported → String
  | .rule .emailOpened =>
      "Email opened condition is not yet supported by runner; fallback uses has_replied."
  | .rule .emailClicked =>
      "Email clicked condition is not yet supported by runner; fallback uses has_replied."
  | .rule .tagExists =>
      "Tag based condition is not yet supported by runner; fallback uses has_replied."
  | .rule .customEvent =>
      "Custom event condition is not yet supported by runner; fallback uses has_replied."
  | .rule .userProperty => ""
  | .property key =>
      "Condition property \"" ++ (if key.isEmpty then "unknown" else key)
        ++ "\" is not supported by the current runner."

end Unsupported

/-- What was lost or went wrong on the walk. -/
inductive Finding where
  | missingTrigger
  | stepGuard (node : String)
  | loop (node : String)
  | missingNode (node : String)
  | unsupportedNode (kind : NodeKind) (node : String)
  | divergentBranches (title node : String)
  | deadEnd (title node : String)
  | elseIfDropped (title node : String)
  | branchUnconnected (title node : String)
  | ruleFallback (cause : Unsupported) (node : String)
  deriving DecidableEq

namespace Finding

def severity : Finding → Severity
  | .missingTrigger | .stepGuard _ | .loop _ | .missingNode _ | .unsupportedNode .. => .fatal
  | .divergentBranches .. => .fatal
  | .deadEnd .. | .elseIfDropped .. | .branchUnconnected .. | .ruleFallback .. => .advisory

def code : Finding → String
  | .missingTrigger => "missing_trigger"
  | .stepGuard _ => "step_guard"
  | .loop _ => "loop"
  | .missingNode _ => "missing_node"
  | .unsupportedNode .. => "unsupported_node"
  | .divergentBranches .. => "divergent_branches"
  | .deadEnd .. => "dead_end"
  | .elseIfDropped .. => "else_if_dropped"
  | .branchUnconnected .. => "branch_unconnected"
  | .ruleFallback .. => "rule_fallback"

def message : Finding → String
  | .missingTrigger => "No trigger node found."
  | .stepGuard _ => "Compilation guard reached while resolving graph path."
  | .loop _ => "Loop detected while compiling workflow."
  | .missingNode node => "Connected node " ++ node ++ " no longer exists."
  | .unsupportedNode kind _ =>
      "Node type " ++ kind.name ++ " is not supported by the current automation runner."
  | .divergentBranches title _ =>
      "Condition node \"" ++ title
        ++ "\" has divergent continue branches that are not representable in linear runner."
  | .deadEnd title _ =>
      "Node \"" ++ title ++ "\" has no outgoing connection; the flow stops here."
  | .elseIfDropped title _ =>
      "Condition node \"" ++ title
        ++ "\" uses else-if branches; legacy flow fallback only preserves If/Else behavior."
  | .branchUnconnected title _ =>
      "Condition node \"" ++ title ++ "\" must connect both If and Else outputs."
  | .ruleFallback cause _ => cause.message

/-- The node a finding is about. -/
def node? : Finding → Option String
  | .missingTrigger | .missingNode _ => none
  | .stepGuard node | .loop node | .unsupportedNode _ node | .divergentBranches _ node
  | .deadEnd _ node | .elseIfDropped _ node | .branchUnconnected _ node
  | .ruleFallback _ node => some node

def isFatal (f : Finding) : Bool := f.severity == .fatal

def document (f : Finding) : Document :=
  .object
    [("severity", .text f.severity.name), ("code", .text f.code), ("message", .text f.message),
     ("node_id", .ofText? f.node?)]

end Finding

/-- A flow, and what was lost on the way to it. -/
structure Compiled where
  steps : Flow
  findings : List Finding := []

namespace Compiled

def fatal (c : Compiled) : List Finding := c.findings.filter (·.isFatal)

def advisory (c : Compiled) : List Finding := c.findings.filter fun f => !f.isFatal

def hasFatal (c : Compiled) : Bool := c.findings.any (·.isFatal)

/-- The messages of all findings in their order. -/
def errors (c : Compiled) : List String := c.findings.map (·.message)

/-- The flow that stops at once. -/
def stopped (id : String) (findings : List Finding := []) : Compiled := ⟨[.stop id], findings⟩

/-- A step and its findings before the rest. -/
def before (s : Step) (findings : List Finding) (c : Compiled) : Compiled :=
  ⟨s :: c.steps, findings ++ c.findings⟩

@[simp] theorem hasFatal_stopped (id : String) (findings : List Finding) :
    (stopped id findings).hasFatal = findings.any (·.isFatal) := rfl

@[simp] theorem hasFatal_before (s : Step) (findings : List Finding) (c : Compiled) :
    (before s findings c).hasFatal = (findings.any (·.isFatal) || c.hasFatal) := by
  simp [before, hasFatal]

end Compiled

namespace Clause

/-- What the runner tests in place of a clause: the rule, its value, and what speaks against it. -/
def forRunner (c : Clause) : RunnerRule × String × Option Unsupported :=
  match c.rule with
  | .userProperty =>
      let key := lower c.propertyKey
      match RunnerRule.forKey? key with
      | some r => (r, c.value, none)
      | none => (.hasReplied, "", some (.property key))
  | r => (.hasReplied, "", some (.rule r))

end Clause

namespace Compilation

/-- The name of the stop that follows a step or node. -/
def stopId (id : String) : String := id ++ "_stop"

/-- The step of a message. -/
def emailStep (n : Node) (c : EmailConfig) : Step :=
  { id := n.id, name := if n.title.isEmpty then "Send email" else n.title
    action := .sendEmail
      { senderConfigId := c.senderConfigId.getD "", templateId := c.templateId.getD ""
        subject := c.subject, body := c.body, threadWithPrevious := c.threadWithPrevious } }

/-- The length of a pause that is handed on; a pause of no length counts as left open. -/
def handedOn : Option Float → Option Float
  | some x => if x == 0.0 then none else some x
  | none => none

/-- The step of a pause. -/
def waitStep (n : Node) (c : WaitConfig) : Step :=
  { id := n.id, name := if n.title.isEmpty then "Wait" else n.title
    action := .wait (handedOn c.duration) c.unit }

/-- The first edge on the first of the handles that has one. -/
def edgeOn (edges : List Edge) (handles : List String) : Option Edge :=
  handles.findSome? fun h => edges.find? fun e => e.sourceHandle == some h

/-- The node where a branch goes on, none if the runner stops on it. -/
def onward (nodes : List Node) (e : Option Edge) : Option Node :=
  (e.bind fun e => Workflow.indexed? nodes e.target).filter fun n => !n.isA .exit

theorem onward_eq_some_iff {nodes : List Node} {e : Edge} {n : Node} :
    onward nodes (some e) = some n ↔
      Workflow.indexed? nodes e.target = some n ∧ n.isA .exit = false := by
  simp [onward, Option.filter_eq_some_iff]

/-- What the runner does when a branch is taken. -/
def verdict (onward : Option Node) : Verdict := if onward.isSome then .goOn else .halt

/-- What the walk does at a condition: its step, what is lost, and where it goes on. -/
structure ConditionPlan where
  step : Step
  findings : List Finding
  ifNode : Option Node
  elseNode : Option Node

/-- The plan for a condition with canonical clauses and the edges that leave it. -/
def planCondition (nodes : List Node) (n : Node) (clauses : List Clause) (edges : List Edge) :
    ConditionPlan :=
  let ifEdge := edgeOn edges [Handle.ifBranch, "yes"]
  let elseEdge := edgeOn edges [Handle.elseBranch, "no"]
  let ifNode := onward nodes ifEdge
  let elseNode := onward nodes elseEdge
  let (rule, value, against) := (clauses.head?.getD {}).forRunner
  { step :=
      { id := n.id, name := if n.title.isEmpty then "Condition" else n.title
        action := .condition rule value (verdict ifNode) (verdict elseNode) }
    findings :=
      (if 1 < clauses.length then [.elseIfDropped n.title n.id] else [])
        ++ (if ifEdge.isNone || elseEdge.isNone then [.branchUnconnected n.title n.id] else [])
        ++ (against.map fun cause => .ruleFallback cause n.id).toList
    ifNode, elseNode }

/-- The walk along the edge that leaves a node first. -/
def follow (w : Workflow) (n : Node) (rest : String → Compiled) : Compiled :=
  match (Workflow.edgesFrom w.edges n.id).head? with
  | some e => rest e.target
  | none => .stopped (stopId n.id) [.deadEnd n.title n.id]

/-- The walk from a condition: on to the node where its branches go on. -/
def continuation (plan : ConditionPlan) (n : Node) (rest : String → Compiled) : Compiled :=
  match plan.ifNode, plan.elseNode with
  | some a, some b =>
      if a.id = b.id then rest a.id
      else .stopped (stopId n.id) [.divergentBranches n.title n.id]
  | some a, none => rest a.id
  | none, some b => rest b.id
  | none, none => .stopped (stopId n.id)

/-- The walk from a node on, with the nodes it may still pass, the nodes it has passed, and the last
step or the trigger. -/
def walk (w : Workflow) : Nat → List String → String → String → Compiled
  | 0, _, last, current => .stopped (stopId last) [.stepGuard current]
  | budget + 1, visited, last, current =>
      if visited.contains current then .stopped (stopId current) [.loop current]
      else match Workflow.indexed? w.nodes current with
        | none => .stopped (stopId last) [.missingNode current]
        | some n =>
            let rest := walk w budget (current :: visited) n.id
            match n.config with
            | .trigger _ => .stopped (stopId n.id) [.loop n.id]
            | .sendEmail c => .before (emailStep n c) [] (follow w n rest)
            | .wait c => .before (waitStep n c) [] (follow w n rest)
            | .condition c =>
                let plan := planCondition w.nodes n c.canonical (Workflow.edgesFrom w.edges n.id)
                .before plan.step plan.findings (continuation plan n rest)
            | .split _ | .webhook _ => .stopped (stopId n.id) [.unsupportedNode n.kind n.id]
            | .exit _ => .stopped n.id

end Compilation

namespace Workflow

/-- The number of nodes that a walk may pass if nothing else is said. -/
def compileBudget : Nat := 64

/-- The flow of a workflow. -/
def compile (w : Workflow) (budget : Nat := compileBudget) : Compiled :=
  match w.trigger? with
  | none => .stopped "stop" [.missingTrigger]
  | some t => Compilation.follow w t (Compilation.walk w budget [] t.id)

/-- What is converted at the conditions that a flow has steps for, which are those on its way. -/
def flowConversions (w : Workflow) (f : Flow) : List Conversion :=
  (f.filter fun s => s.action.isCondition).flatMap fun s =>
    ((indexed? w.nodes s.id).map (·.config.conversions)).getD []

/-- The flow of a workflow, once the clauses of the conditions on its way are read. -/
def tryCompile (w : Workflow) (budget : Nat := compileBudget) : Except Overlong Compiled :=
  Conversion.after (w.flowConversions (w.compile budget).steps) (w.compile budget)

end Workflow

/-! ## The stop at the end -/

/-- A flow that ends in its only stop. -/
def Flow.EndsInStop (f : Flow) : Prop :=
  ∃ steps id, f = steps ++ [Step.stop id] ∧ ∀ s ∈ steps, s.action.isStop = false

namespace Compilation

theorem endsInStop_stopped (id : String) (findings : List Finding) :
    (Compiled.stopped id findings).steps.EndsInStop := ⟨[], id, rfl, by simp⟩

theorem endsInStop_before {s : Step} {findings : List Finding} {c : Compiled}
    (h : s.action.isStop = false) (rest : c.steps.EndsInStop) :
    (Compiled.before s findings c).steps.EndsInStop := by
  obtain ⟨steps, id, eq, none⟩ := rest
  refine ⟨s :: steps, id, by simp [Compiled.before, eq], ?_⟩
  intro t mem
  rcases List.mem_cons.1 mem with rfl | mem
  · exact h
  · exact none t mem

theorem endsInStop_follow (w : Workflow) (n : Node) {rest : String → Compiled}
    (h : ∀ id, (rest id).steps.EndsInStop) : (follow w n rest).steps.EndsInStop := by
  unfold follow
  split
  · exact h _
  · exact endsInStop_stopped _ _

theorem endsInStop_continuation (plan : ConditionPlan) (n : Node) {rest : String → Compiled}
    (h : ∀ id, (rest id).steps.EndsInStop) : (continuation plan n rest).steps.EndsInStop := by
  unfold continuation
  split
  · split
    · exact h _
    · exact endsInStop_stopped _ _
  · exact h _
  · exact h _
  · exact endsInStop_stopped _ _

/-- Every walk ends in its only stop. -/
theorem steps_walk (w : Workflow) (budget : Nat) (visited : List String) (last current : String) :
    (walk w budget visited last current).steps.EndsInStop := by
  induction budget generalizing visited last current with
  | zero => exact endsInStop_stopped _ _
  | succ budget ih =>
    unfold walk
    split
    · exact endsInStop_stopped _ _
    · split
      · exact endsInStop_stopped _ _
      · simp only
        split
        · exact endsInStop_stopped _ _
        · exact endsInStop_before rfl (endsInStop_follow _ _ fun id => ih _ _ id)
        · exact endsInStop_before rfl (endsInStop_follow _ _ fun id => ih _ _ id)
        · exact endsInStop_before rfl (endsInStop_continuation _ _ fun id => ih _ _ id)
        · exact endsInStop_stopped _ _
        · exact endsInStop_stopped _ _
        · exact endsInStop_stopped _ _

end Compilation

end Journey
