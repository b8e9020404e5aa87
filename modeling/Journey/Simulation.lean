import Journey.Condition.Outcome
import Journey.Node.Catalogue
import Journey.Workflow.Basic

/-!
# Journey.Simulation -- dry runs

A dry run walks along a workflow with one contact and does nothing but take notes.  It starts at the
trigger; at each node it notes an event and picks the next edge: a condition the edge of the branch
that the contact takes, a split the edge of the variant that the roll says, and all others the first.
Where the edge of a branch is missing, the first edge is taken.  The run is complete when it reaches
an exit.  Otherwise it ends with a warning: at a node without edge, at an edge to no node, or after
as many nodes as it is allowed.  The conditions it visits are read, and where one cannot be read
there is no run (`Workflow.trySimulate`).

The rolls of the splits are a sequence given from outside, and so a run is the same whenever it is
repeated.  Main statement: a complete run ends at an exit (`exit_of_completed`).
-/

namespace Journey

set_option autoImplicit false

/-- How much an event deserves attention. -/
inductive Level where
  | info
  | warning
  | error
  deriving DecidableEq

namespace Level

def name : Level → String
  | .info => "info"
  | .warning => "warning"
  | .error => "error"

end Level

/-- A note that is taken on a dry run. -/
structure Event where
  id : String
  node : Option String := none
  edge : Option String := none
  type : String
  message : String
  level : Level := .info
  deriving DecidableEq

namespace Event

/-- The event with the time at which it was noted. -/
def document (time : String) (e : Event) : Document :=
  .object
    [("id", .text e.id), ("nodeId", .ofText? e.node), ("edgeId", .ofText? e.edge),
     ("type", .text e.type), ("message", .text e.message), ("createdAt", .text time),
     ("level", .text e.level.name)]

def warning (id message : String) (node edge : Option String := none) : Event :=
  { id, node, edge, type := "warning", message, level := .warning }

def noTrigger : Event :=
  { id := "simulation_no_trigger", type := "error", message := "No trigger node found."
    level := .error }

def missingNode (node : String) (edge : Option String) : Event :=
  .warning ("simulation_missing_node_" ++ node)
    ("Connection points to missing node " ++ node ++ "; simulation stopped.") none edge

def deadEnd (n : Node) : Event :=
  .warning ("simulation_dead_end_" ++ n.id)
    ("Node \"" ++ n.title ++ "\" has no outgoing connection; simulation stopped.") (some n.id)

def guard : Event := .warning "simulation_guard" "Simulation stopped by loop guard."

/-- The event of a node that is passed as the step with a number. -/
def passing (n : Node) (step : Nat) (message : String) : Event :=
  { id := "e_" ++ n.id ++ "_" ++ Decimal.writeNat step, node := some n.id, type := n.kind.name
    message }

end Event

/-- What was visited and noted on a dry run. -/
structure Simulation where
  nodes : List String := []
  edges : List String := []
  events : List Event := []
  completed : Bool := false
  deriving DecidableEq

namespace Simulation

/-- The dry run with the time at which its events were noted. -/
def document (time : String) (s : Simulation) : Document :=
  .object
    [("visitedNodeIds", .list (s.nodes.map .text)), ("visitedEdgeIds", .list (s.edges.map .text)),
     ("events", .list (s.events.map (Event.document time))), ("completed", .bool s.completed)]

/-- A run that passes a node, and then an edge, before the rest. -/
def passing (n : Node) (e : Event) (edge : Option String) (rest : Simulation) : Simulation :=
  { rest with
    nodes := n.id :: rest.nodes, edges := edge.toList ++ rest.edges, events := e :: rest.events }

/-- A text, or another one in place of the empty text. -/
def shownOr (s other : String) : String := if s.isEmpty then other else s

/-- The share of variant A in percent, between nothing and all; an undefined share is all. -/
def shareA (c : SplitConfig) : Float :=
  let atMost := if c.percentageA < 100.0 then c.percentageA else 100.0
  if atMost > 0.0 then atMost else 0.0

/-- The handle of the variant that a roll says. -/
def variant (c : SplitConfig) (roll : Float) : String :=
  if roll * 100.0 < shareA c then "a" else "b"

/-- The length of a pause as it is shown; no length counts as one. -/
def shownLength (c : WaitConfig) : String :=
  Decimal.writeTerse (if c.length == 0.0 then 1.0 else c.length)

/-- The edge on a handle, the first edge if there is none. -/
def edgeOn (edges : List Edge) (handle : String) : Option Edge :=
  match edges.find? fun e => e.sourceHandle == some handle with
  | some e => some e
  | none => edges.head?

/-- What is said at a node, and the handle on which it is left if it has branches; `roll` is the roll
a split would take. -/
def decide (n : Node) (contact : Contact) (roll : Float) : String × Option String :=
  match n.config with
  | .trigger _ => ("Trigger fired.", none)
  | .sendEmail c => ("Would send email: " ++ shownOr c.subject "Untitled", none)
  | .wait c => ("Wait " ++ shownLength c ++ " " ++ c.unit.name, none)
  | .condition c =>
      let branch := Condition.pick c.canonical contact
      (if branch.matched then "Condition matched " ++ branch.label ++ "."
        else "Condition fell through to Else.", some branch.handle)
  | .split c =>
      let handle := variant c roll
      ("Split selected variant " ++ handle.toUpper ++ ".", some handle)
  | .webhook c => ("Would call " ++ shownOr c.url "URL missing", none)
  | .exit _ => ("Workflow completed.", none)

/-- What is converted when a branch is picked: the clauses of a condition are read, and what they ask
for is shown. -/
def pickConversions (contact : Contact) : Config → List Conversion
  | .condition c => c.conversions ++ Condition.pickLookUps contact c.canonical
  | _ => []

/-- The edge by which a node is left. -/
def nextEdge (edges : List Edge) : Option String → Option Edge
  | some handle => edgeOn edges handle
  | none => edges.head?

/-- How far a run has come: the number of steps taken and of rolls used, and the last edge. -/
structure Progress where
  step : Nat := 0
  rolled : Nat := 0
  edge : Option String := none

/-- The run from a point on, with the number of nodes it may still pass. -/
def run (w : Workflow) (contact : Contact) (rolls : Nat → Float) :
    Nat → Progress → String → Simulation
  | 0, _, _ => { events := [.guard] }
  | budget + 1, p, current =>
      match Workflow.indexed? w.nodes current with
      | none => { events := [.missingNode current p.edge] }
      | some n =>
          let (message, handle) := decide n contact (rolls p.rolled)
          let event := Event.passing n (p.step + 1) message
          if n.isA .exit then passing n event none { completed := true }
          else match nextEdge (Workflow.edgesFrom w.edges n.id) handle with
            | none => passing n event none { events := [.deadEnd n] }
            | some e =>
                let rolled := if n.isA .split then p.rolled + 1 else p.rolled
                passing n event (some e.id)
                  (run w contact rolls budget ⟨p.step + 1, rolled, some e.id⟩ e.target)

end Simulation

namespace Workflow

/-- The number of nodes that a dry run may pass if nothing else is said. -/
def simulateBudget : Nat := 48

/-- A dry run of the workflow with a contact. -/
def simulate (w : Workflow) (contact : Contact) (rolls : Nat → Float)
    (budget : Nat := simulateBudget) : Simulation :=
  match w.trigger? with
  | none => { events := [.noTrigger] }
  | some t => Simulation.run w contact rolls budget {} t.id

/-- What is converted at visited nodes. -/
def visitConversions (w : Workflow) (contact : Contact) (visited : List String) : List Conversion :=
  visited.flatMap fun id =>
    ((indexed? w.nodes id).map (Simulation.pickConversions contact ·.config)).getD []

/-- A dry run of the workflow with a contact, once the branches of the visited conditions are
picked. -/
def trySimulate (w : Workflow) (contact : Contact) (rolls : Nat → Float)
    (budget : Nat := simulateBudget) : Except Overlong Simulation :=
  let s := w.simulate contact rolls budget
  Conversion.after (w.visitConversions contact s.nodes) s

end Workflow

namespace Simulation

theorem exit_of_completed {w : Workflow} {contact : Contact} {rolls : Nat → Float} {budget : Nat}
    {p : Progress} {current : String}
    (h : (run w contact rolls budget p current).completed = true) :
    ∃ n ∈ w.nodes, n.isA .exit = true
      ∧ (run w contact rolls budget p current).nodes.getLast? = some n.id := by
  induction budget generalizing p current with
  | zero => simp [run] at h
  | succ budget ih =>
    unfold run at h ⊢
    split at h
    · simp at h
    · next n found =>
      simp only at h ⊢
      have mem : n ∈ w.nodes := by
        have := List.mem_of_find?_eq_some (p := fun m : Node => m.id == current) found
        simpa using this
      split at h
      · next isExit => exact ⟨n, mem, isExit, by simp [isExit, passing]⟩
      · next notExit =>
        split at h
        · simp [passing] at h
        · next e next =>
          obtain ⟨m, memM, exitM, last⟩ := ih h
          refine ⟨m, memM, exitM, ?_⟩
          simp only [notExit]
          simp [passing, List.getLast?_cons, last]

end Simulation

end Journey
