import Journey.Layout
import Journey.Runner.Compiled
import Journey.Text.Blank
import Journey.Workflow.Validity

/-!
# Journey.Review -- what stands between a workflow and its publication

Before a workflow is published it is reviewed.  The review is a list of items, each of which looks at
one side of the workflow and passes unless it finds an obstacle: one trigger, a way to an exit,
messages that are written, conditions whose branches all lead somewhere, blocks that are connected
and reached, blocks that the runner knows, and a flow without fatal findings.  A workflow may be
published when all items pass.

A report shows the review together with the nodes, the edges, the flow and the breaches of the rules.
Main statement: an item passes exactly when it has no obstacle, and says so (`detail_of_passed`).
-/

namespace Journey

set_option autoImplicit false

open Journey.Text (trim)

/-- One side of a workflow, and what is wrong with it. -/
structure ReviewItem where
  id : String
  label : String
  obstacle : Option String
  deriving DecidableEq

namespace ReviewItem

/-- Whether nothing is wrong. -/
def passed (i : ReviewItem) : Bool := i.obstacle.isNone

/-- What is said of the item. -/
def detail (i : ReviewItem) : String := i.obstacle.getD "Ready"

theorem detail_of_passed {i : ReviewItem} (h : i.passed = true) : i.detail = "Ready" := by
  simp only [passed, Option.isNone_iff_eq_none] at h
  simp [detail, h]

def document (i : ReviewItem) : Document :=
  .object
    [("id", .text i.id), ("label", .text i.label), ("passed", .bool i.passed),
     ("detail", .text i.detail)]

/-- An item that passes if a condition holds. -/
def of (id label : String) (holds : Bool) (otherwise : String) : ReviewItem :=
  { id, label, obstacle := if holds then none else some otherwise }

/-- An item that passes if there are no nodes that it counts. -/
def counting (id label : String) (found : List Node) (otherwise : String) : ReviewItem :=
  of id label found.isEmpty (Decimal.writeNat found.length ++ otherwise)

end ReviewItem

/-- Whether a node is a message without subject or without body. -/
def Node.isUnwritten (n : Node) : Bool :=
  match n.config with
  | .sendEmail c => (trim c.subject).isEmpty || (trim c.body).isEmpty
  | _ => false

namespace Workflow

/-- Whether a node is a condition one of whose branches has no edge. -/
def isOpen (w : Workflow) (n : Node) : Bool :=
  match n.config with
  | .condition c =>
      (Condition.branches c.canonical).any fun b =>
        !(edgesFrom w.edges n.id).any fun e => e.sourceHandle == some b.handle
  | _ => false

/-- Whether a node that is no trigger has no edge that enters it. -/
def isDetached (w : Workflow) (n : Node) : Bool :=
  !n.isA .trigger && (edgesTo w.edges n.id).isEmpty

/-- The items of the review of a workflow and the flow it gives, in the order in which they are
shown. -/
def review (w : Workflow) (c : Compiled) : List ReviewItem :=
  let reached := w.reachable
  [.of "trigger" "Workflow has a trigger block" (w.nodes.countP (·.isA .trigger) == 1)
      "Add exactly one trigger node.",
   .of "exit" "At least one reachable exit path" (w.exits.any fun n => reached.contains n.id)
      "Connect a path to an Exit block.",
   .counting "emails" "All email blocks have subject and body" (w.nodes.filter (·.isUnwritten))
      " email block(s) need subject/body content.",
   .counting "conditions" "Condition nodes map If / Else If / Else branches"
      (w.nodes.filter w.isOpen)
      " condition block(s) are missing one or more branch connections.",
   .counting "connections" "All non-trigger nodes are connected" (w.nodes.filter w.isDetached)
      " node(s) are not connected to an inbound path.",
   .counting "unreachable" "No unreachable nodes on the canvas"
      (w.nodes.filter fun n => !reached.contains n.id)
      " node(s) are unreachable from the trigger.",
   .counting "runner" "Runner-compatible blocks only (email/wait/condition/exit)"
      (w.nodes.filter fun n => !n.kind.block.runnable)
      " block(s) need runner support before publish (split/webhook).",
   .of "compile" "Compiles to the runner flow without blocking errors" (!c.hasFatal)
      ("; ".intercalate (c.fatal.map Finding.message))]

/-- What is converted when a workflow is reviewed: the clauses of all its conditions are read. -/
def reviewConversions (w : Workflow) : List Conversion := w.nodes.flatMap (·.config.conversions)

/-- The items of the review, once the clauses of all conditions are read. -/
def tryReview (w : Workflow) (c : Compiled) : Except Overlong (List ReviewItem) :=
  Conversion.after w.reviewConversions (w.review c)

/-- Whether the workflow may be published. -/
def canPublish (w : Workflow) : Bool := (w.review w.compile).all (·.passed)

/-- Whether the workflow may be published, once its flow is there and it is reviewed. -/
def tryCanPublish (w : Workflow) : Except Overlong Bool := do
  let items ← w.tryReview (← w.tryCompile)
  return items.all (·.passed)

/-! ## The report -/

/-- What the report says of a node. -/
def nodeReport (w : Workflow) (reached : List String) (n : Node) : Document :=
  let connected := (edgesFrom w.edges n.id).map fun e => if e.door.isEmpty then "out" else e.door
  .object
    [("id", .text n.id), ("kind", .text n.kind.name), ("title", .text n.title),
     ("category", .text n.kind.block.category),
     ("supports_runner", .bool n.kind.block.runnable),
     ("reachable", .bool (reached.contains n.id)),
     ("incoming", .int (edgesTo w.edges n.id).length),
     ("output_ports", .list (n.config.outlets.map fun p => .object
        [("id", .text p.handle), ("label", .text p.label),
         ("connected", .bool (connected.contains p.handle))]))]

/-- What the report says of an edge. -/
def edgeReport (w : Workflow) (e : Edge) : Document :=
  let title (id : String) : Document := .ofText? ((indexed? w.nodes id).map (·.title))
  .object
    [("id", .text e.id), ("source", .text e.source), ("source_title", title e.source),
     ("target", .text e.target), ("target_title", title e.target),
     ("handle", .ofText? e.sourceHandle), ("label", .ofText? e.label)]

/-- What the report says in short. -/
def reportSummary (w : Workflow) (c : Compiled) (items : List ReviewItem) (valid : Bool) : Document :=
  .object
    [("workflow_name", .text w.name), ("workflow_id", .text w.id),
     ("total_nodes", .int w.nodes.length), ("total_edges", .int w.edges.length),
     ("compiled_steps", .int c.steps.length), ("fatal_count", .int c.fatal.length),
     ("advisory_count", .int c.advisory.length), ("is_valid", .bool valid),
     ("can_publish", .bool (items.all (·.passed)))]

/-- The report on a workflow. -/
def report (w : Workflow) : Fields :=
  let c := w.compile
  let items := w.review c
  let problems := w.problems
  [("summary", w.reportSummary c items problems.isEmpty),
   ("nodes", .list (w.nodes.map (w.nodeReport w.reachable))),
   ("edges", .list (w.edges.map w.edgeReport)),
   ("compile", .object
      [("steps", .list c.steps.documents), ("diagnostics", .list (c.findings.map Finding.document))]),
   ("checklist", .list (items.map ReviewItem.document)),
   ("validation", .object
      [("valid", .bool problems.isEmpty),
       ("errors", .list (problems.map fun p => .text p.message))])]

/-- The report on a workflow, once its rules are checked, its flow is there and it is reviewed. -/
def tryReport (w : Workflow) : Except Overlong Fields := do
  let _ ← w.tryProblems
  let _ ← w.tryReview (← w.tryCompile)
  return w.report

end Workflow

end Journey
