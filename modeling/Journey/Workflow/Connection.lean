import Journey.Workflow.Validity

/-!
# Journey.Workflow.Connection -- whether a new edge may be added

A request for a connection names two nodes and the handles at their ends.  The rules are tried in a
fixed order and the first one that is broken is the reason for the refusal: both ends are given and
are nodes; nothing leaves an exit, enters a trigger, or returns to its own node; the connection is
new and closes no loop; a branch of a condition or a split exists and is free; and no node but an
exit is entered twice.  A granted request gives an edge with the label of its branch
(`Connection.connect`).
-/

namespace Journey

set_option autoImplicit false

/-- Why a connection is refused. -/
inductive Rejection where
  | missingEndpoint
  | unknownNode
  | exitHasNoOutput
  | triggerHasNoInput
  | selfLoop
  | duplicate
  | cycle
  | invalidConditionBranch
  | conditionBranchInUse (label : String)
  | invalidSplitBranch
  | splitBranchInUse (handle : String)
  | targetHasInput
  deriving DecidableEq

namespace Rejection

def name : Rejection → String
  | .missingEndpoint => "missing_endpoint"
  | .unknownNode => "unknown_node"
  | .exitHasNoOutput => "exit_has_no_output"
  | .triggerHasNoInput => "trigger_has_no_input"
  | .selfLoop => "self_loop"
  | .duplicate => "duplicate"
  | .cycle => "cycle"
  | .invalidConditionBranch => "invalid_condition_branch"
  | .conditionBranchInUse _ => "condition_branch_in_use"
  | .invalidSplitBranch => "invalid_split_branch"
  | .splitBranchInUse _ => "split_branch_in_use"
  | .targetHasInput => "target_has_input"

/-- What the user is told. -/
def message : Rejection → String
  | .missingEndpoint => "Connection requires source and target."
  | .unknownNode => "Connection endpoint no longer exists."
  | .exitHasNoOutput => "Exit nodes cannot have outgoing connections."
  | .triggerHasNoInput => "Trigger nodes cannot receive incoming connections."
  | .selfLoop => "Self loops are not allowed."
  | .duplicate => "This connection already exists."
  | .cycle => "This connection would create a loop."
  | .invalidConditionBranch => "Condition blocks must connect from If / Else If / Else outputs."
  | .conditionBranchInUse label => "Condition branch \"" ++ label ++ "\" is already connected."
  | .invalidSplitBranch => "Split blocks must use Variant A/B outputs."
  | .splitBranchInUse handle => "Split " ++ handle.toUpper ++ " branch already connected."
  | .targetHasInput => "Only one incoming edge is allowed per node."

end Rejection

/-- The ends of a connection that is asked for. -/
structure Connection where
  source : Option String := none
  target : Option String := none
  sourceHandle : Option String := none
  targetHandle : Option String := none

namespace Connection

/-- A text that is given and not empty. -/
def given : Option String → Option String
  | some s => if s.isEmpty then none else some s
  | none => none

/-- Whether some edge leaves a handle of a node. -/
def inUse (edges : List Edge) (source door : String) : Bool :=
  edges.any fun e => e.source == source && e.door == door

/-- What speaks against leaving a node on a handle. -/
def branchRejection? (edges : List Edge) (source : Node) (id door : String) : Option Rejection :=
  match source.config with
  | .condition c =>
      if !Condition.accepts c.canonical door then some .invalidConditionBranch
      else if inUse edges id door then
        let label := (Condition.labelAt? c.canonical door).getD ""
        some (.conditionBranchInUse (if label.isEmpty then door else label))
      else none
  | .split _ =>
      if !splitHandles.contains door then some .invalidSplitBranch
      else if inUse edges id door then some (.splitBranchInUse door)
      else none
  | _ => none

/-- What speaks against an edge between two nodes with the given identifiers and handle. -/
def rejection? (edges : List Edge) (source target : Node) (s t door : String) : Option Rejection :=
  if source.isA .exit then some .exitHasNoOutput
  else if target.isA .trigger then some .triggerHasNoInput
  else if s = t then some .selfLoop
  else if edges.any fun e => e.source == s && e.target == t && e.door == door then some .duplicate
  else if Paths.createsCycle edges s t then some .cycle
  else match branchRejection? edges source s door with
    | some r => some r
    | none =>
        if !target.isA .exit && edges.any (·.target == t) then some .targetHasInput else none

/-- The edge that a granted request gives. -/
def edge (c : Connection) (source : Node) (s t : String) : Edge :=
  { id := "", source := s, target := t
    sourceHandle := given c.sourceHandle, targetHandle := given c.targetHandle
    label := source.config.edgeLabel? c.sourceHandle
    animated := true
    data := { branch := given c.sourceHandle, highlighted := false } }

/-- The edge that is asked for, without identifier, or the first rule it breaks. -/
def check (c : Connection) (nodes : List Node) (edges : List Edge) : Except Rejection Edge :=
  match given c.source, given c.target with
  | some s, some t =>
      match Workflow.indexed? nodes s, Workflow.indexed? nodes t with
      | some source, some target =>
          match rejection? edges source target s t (c.sourceHandle.getD "") with
          | some r => .error r
          | none => .ok (c.edge source s t)
      | _, _ => .error .unknownNode
  | _, _ => .error .missingEndpoint

/-- Whether a check came as far as the branches of the source. -/
def reachesBranches : Except Rejection Edge → Bool
  | .ok _ => true
  | .error .invalidConditionBranch | .error (.conditionBranchInUse _) | .error .targetHasInput => true
  | .error _ => false

/-- What is converted when a connection is checked: the clauses of a condition that it leaves, if no
earlier rule is broken. -/
def conversions (c : Connection) (nodes : List Node) (edges : List Edge) : List Conversion :=
  if reachesBranches (c.check nodes edges) then
    (((given c.source).bind (Workflow.indexed? nodes)).map (·.config.conversions)).getD []
  else []

/-- The edge that is asked for, or the first rule it breaks. -/
def connect (c : Connection) (nodes : List Node) (edges : List Edge) :
    Except Rejection (Fresh Edge) :=
  (c.check nodes edges).map Edge.identify

end Connection

end Journey
