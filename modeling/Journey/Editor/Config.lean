import Journey.Config.Amended
import Journey.Editor.Nodes

/-!
# Journey.Editor.Config -- new settings for a block

The settings of a block are changed by a patch.  The clauses of a condition block are then read anew
and get canonical handles, and the edges that leave the block follow their clauses.  A clause of the
patch is the old one whose identifier it carries; one that carries none of the old identifiers takes
over the old clause at its position, unless another clause of the patch carries that.  So each old
handle has at most one new handle (`newHandle?`).  An edge whose clause is gone is removed, and one
that stays is labelled anew.

A patch is refused when the new clauses cannot be read, or when one of them has a list or an object
for an identifier, which no old identifier can be compared with.
-/

namespace Journey

set_option autoImplicit false

namespace ConditionConfig

/-- The members of the settings, with those of a patch in their place. -/
def patchedRow (c : ConditionConfig) (patch : Fields) : Fields :=
  Fields.overlay (c.row Key.written .kept) patch

/-- The clauses of the settings, or those of a patch in their place, as they are written. -/
def patchedClauses (c : ConditionConfig) (patch : Fields) : List Document :=
  (Fields.getD (c.patchedRow patch) "clauses").items

end ConditionConfig

namespace Condition

/-- The old identifier that a clause of a patch carries. -/
def carried (old : List String) (d : Document) : Option String :=
  match Fields.getD d.fields "id" with
  | .text id => if old.contains id then some id else none
  | _ => none

/-- The identifier of a clause of a patch if it is a list or an object. -/
def compoundId? (d : Document) : Option Document :=
  match Fields.getD d.fields "id" with
  | .list ds => some (.list ds)
  | .object row => some (.object row)
  | _ => none

/-- The clauses of a patch, refused at the first whose identifier is a list or an object. -/
def requirePlainIds (patched : List Document) : Except Refusal Unit :=
  match patched.findSome? compoundId? with
  | some id => .error (.clauseIdCompound id)
  | none => .ok ()

/-- The identifier of the old clause that a clause at a position takes over; `taken` are those that
other clauses carry or have taken over. -/
def inherited (old taken : List String) (position : Nat) (carried : Option String) : Option String :=
  match carried with
  | some id => some id
  | none => old[position]?.filter fun id => !taken.contains id

/-- Old identifiers with the handles of the clauses that carry them or take them over, from a
position on. -/
def successors (old taken : List String) (position : Nat) :
    List (Option String) → List Clause → List (String × String)
  | carried :: cs, clause :: clauses =>
      match inherited old taken position carried with
      | some id => (id, clause.id) :: successors old (id :: taken) (position + 1) cs clauses
      | none => successors old taken (position + 1) cs clauses
  | _, _ => []

/-- The handle that an old clause has among the new ones, given the clauses of the patch. -/
def newHandle? (old : List String) (patched : List Document) (clauses : List Clause)
    (handle : String) : Option String :=
  let carriers := patched.map (carried old)
  (successors old (carriers.filterMap id) 0 carriers clauses).lookup handle

/-- The handle that an edge moves to, none if its branch is gone. -/
def follow? (old : List String) (patched : List Document) (clauses : List Clause) (door : String) :
    Option String :=
  match newHandle? old patched clauses door with
  | some handle => some handle
  | none => if !old.contains door && accepts clauses door then some door else none

end Condition

/-- The edge on a handle, with the label of the branch. -/
def Edge.onBranch (e : Edge) (handle : String) (config : Config) : Edge :=
  let moved :=
    if e.sourceHandle = some handle then e
    else { e with sourceHandle := some handle, data := { e.data with branch := some handle } }
  { moved with label := config.edgeLabel? (some handle) }

namespace Editor

/-- The edges after the clauses of a node have changed. -/
def followClauses (edges : List Edge) (id : String) (config : Config)
    (follow? : String → Option String) : List Edge :=
  edges.filterMap fun e =>
    if e.source == id then (follow? e.door).map fun handle => e.onBranch handle config else some e

/-- A condition block with the members of a patch. -/
def patchCondition (e : Editor) (n : Node) (c : ConditionConfig) (patch : Fields) : Editor × Node :=
  let config : Config := .condition { clauses := Condition.canonical (.object (c.patchedRow patch)) }
  let follow? := Condition.follow? (c.clauses.map (·.id)) (c.patchedClauses patch) config.clauses
  let w := e.workflow.updateNode n.id fun n => { n with config }
  (e.record { w with edges := followClauses w.edges n.id config follow? }, { n with config })

/-- A node with the members of a patch in its settings. -/
def patchConfig (e : Editor) (id : String) (patch : Fields) : Except Refusal (Editor × Node) := do
  let n ← e.requireNode id
  match n.config with
  | .condition c =>
      Conversion.orRefuse (Condition.conversions (.object (c.patchedRow patch)))
      Condition.requirePlainIds (c.patchedClauses patch)
      return e.patchCondition n c patch
  | config =>
      let config ← (config.amend patch).orRefuse
      return (e.record (e.workflow.updateNode id fun n => { n with config }), { n with config })

end Editor

end Journey
