import Journey.Node.Catalogue
import Journey.Workflow.Loops

/-!
# Journey.Workflow.Validity -- the rules a finished workflow keeps

A workflow is valid when it has exactly one trigger, its nodes have distinct identifiers, every edge
joins two of its nodes, no edge is there twice, no edge leaves an exit or enters a trigger or returns
to its own node, edges leave conditions and splits on handles that these have, with one edge on each,
every node but an exit is entered by at most one edge, and no edges form a loop.

`Workflow.problems` lists every breach of these rules, edge by edge in their order.  An edge one of
whose ends is no node is reported for that and otherwise left out.  Main statement: a workflow that
is reported valid has no loop (`hasCycle_of_problems`).
-/

namespace Journey

set_option autoImplicit false

/-- A breach of the rules. -/
inductive Problem where
  | noTrigger
  | severalTriggers
  | repeatedNodeIds
  | unknownSource (edge source : String)
  | unknownTarget (edge target : String)
  | repeatedEdge (source target : String)
  | exitLeft (title id : String)
  | triggerEntered (title id : String)
  | selfLoop (title id : String)
  | unknownBranch (title handle : String)
  | unknownVariant (title handle : String)
  | branchShared (handle title : String)
  | severalInputs (title id : String) (count : Nat)
  | loop
  deriving DecidableEq

namespace Problem

/-- What is said of a breach. -/
def message : Problem → String
  | .noTrigger => "Workflow must have exactly one Trigger node."
  | .severalTriggers => "Workflow must have exactly one Trigger node (found multiple)."
  | .repeatedNodeIds => "Node identifiers must be unique."
  | .unknownSource edge source => "Edge " ++ edge ++ " references unknown source node: " ++ source
  | .unknownTarget edge target => "Edge " ++ edge ++ " references unknown target node: " ++ target
  | .repeatedEdge source target => "Duplicate edge " ++ source ++ " → " ++ target ++ "."
  | .exitLeft title id => "Exit node '" ++ title ++ "' (" ++ id ++ ") has an outgoing edge."
  | .triggerEntered title id => "Trigger node '" ++ title ++ "' (" ++ id ++ ") has an incoming edge."
  | .selfLoop title id => "Node '" ++ title ++ "' (" ++ id ++ ") connects to itself."
  | .unknownBranch title handle =>
      "Condition node '" ++ title ++ "' has an edge on unknown branch '" ++ handle ++ "'."
  | .unknownVariant title handle =>
      "Split node '" ++ title ++ "' has an edge on unknown variant '" ++ handle ++ "'."
  | .branchShared handle title =>
      "Branch '" ++ handle ++ "' of '" ++ title ++ "' has more than one connection."
  | .severalInputs title id count =>
      "Node '" ++ title ++ "' (" ++ id ++ ") has " ++ Decimal.writeNat count
        ++ " incoming edges; only one is allowed."
  | .loop => "Workflow graph contains a loop."

end Problem

namespace Workflow

/-- Whether two edges lead from the same handle of the same node to the same node. -/
def sameConnection (e f : Edge) : Bool :=
  e.source == f.source && e.target == f.target && e.door == f.door

/-- Whether two edges leave the same handle of the same node. -/
def sameDoor (e f : Edge) : Bool := e.source == f.source && e.door == f.door

/-- Whether edges leave the kind on handles of which each takes one edge. -/
def branches (k : NodeKind) : Bool := k == .condition || k == .split

/-- The breaches of an edge between two nodes, given the edges before it. -/
def edgeProblems (source target : Node) (earlier : List Edge) (e : Edge) : List Problem :=
  (if earlier.any (sameConnection e) then [.repeatedEdge e.source e.target] else [])
    ++ (if source.isA .exit then [.exitLeft source.title source.id] else [])
    ++ (if target.isA .trigger then [.triggerEntered target.title target.id] else [])
    ++ (if e.source == e.target then [.selfLoop source.title source.id] else [])
    ++ (if source.isA .condition && !Condition.accepts source.config.clauses e.door then
          [.unknownBranch source.title e.door] else [])
    ++ (if source.isA .split && !splitHandles.contains e.door then
          [.unknownVariant source.title e.door] else [])
    ++ (if branches source.kind && earlier.any (sameDoor e) then
          [.branchShared e.door source.title] else [])

/-- The breaches of an edge one of whose ends is no node. -/
def danglingProblems (source target : Option Node) (e : Edge) : List Problem :=
  (if source.isNone then [.unknownSource e.id e.source] else [])
    ++ (if target.isNone then [.unknownTarget e.id e.target] else [])

/-- The breaches of edges, given the edges between nodes before them. -/
def edgesProblems (nodes : List Node) (earlier : List Edge) : List Edge → List Problem
  | [] => []
  | e :: es =>
      match indexed? nodes e.source, indexed? nodes e.target with
      | some source, some target =>
          edgeProblems source target earlier e ++ edgesProblems nodes (earlier ++ [e]) es
      | source, target => danglingProblems source target e ++ edgesProblems nodes earlier es

/-- The edges whose ends are nodes. -/
def attached (nodes : List Node) (edges : List Edge) : List Edge :=
  edges.filter fun e => (indexed? nodes e.source).isSome && (indexed? nodes e.target).isSome

/-- The breach at a node that is entered too often. -/
def inputProblems (nodes : List Node) (targets : List String) (id : String) : List Problem :=
  match indexed? nodes id with
  | some n =>
      if 1 < targets.count id && !n.isA .exit then
        [.severalInputs n.title n.id (targets.count id)] else []
  | none => []

/-- The breaches of the rules on triggers and identifiers. -/
def nodeProblems (w : Workflow) : List Problem :=
  (match w.nodes.countP (·.isA .trigger) with
    | 0 => [.noTrigger]
    | 1 => []
    | _ => [.severalTriggers])
    ++ (if w.nodeIds.eraseDups.length = w.nodeIds.length then [] else [.repeatedNodeIds])

/-- Every breach of the rules. -/
def problems (w : Workflow) : List Problem :=
  let targets := (attached w.nodes w.edges).map (·.target)
  w.nodeProblems ++ edgesProblems w.nodes [] w.edges
    ++ targets.eraseDups.flatMap (inputProblems w.nodes targets)
    ++ (if w.hasCycle then [.loop] else [])

/-- What is converted when the handles of edges are compared with the branches of their conditions. -/
def problemConversions (w : Workflow) : List Conversion :=
  (attached w.nodes w.edges).flatMap fun e =>
    ((indexed? w.nodes e.source).map (·.config.conversions)).getD []

/-- Every breach of the rules, once the clauses of the conditions with edges are read. -/
def tryProblems (w : Workflow) : Except Overlong (List Problem) :=
  Conversion.after w.problemConversions w.problems

/-- Whether the workflow keeps the rules. -/
def isValid (w : Workflow) : Bool := w.problems.isEmpty

theorem hasCycle_of_problems {w : Workflow} (h : w.problems = []) :
    Paths.hasCycle w.edges = false := by
  simp only [problems, hasCycle_eq, List.append_eq_nil_iff] at h
  by_cases c : Paths.hasCycle w.edges = true
  · simp [c] at h
  · simpa using c

end Workflow

end Journey
