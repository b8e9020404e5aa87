import Journey.Proofs.Editor.Followed
import Mathlib.Data.List.Pairwise

/-!
# Journey.Proofs.Editor.Collided -- blocks whose clauses ask for the handles of others

A stored condition block may name its clauses in any way.  Its edges leave by the handles that its clauses
get, but when new settings are taken they are looked up among the names that its clauses have.  Where a handle
is the name of another clause, the edge on it moves with that one; where it is the name of none, the edge
stays where it is.  So an edge may move to where another one stays: they collide (`Workflow.Collides`).

This is all that can go wrong.  Where new settings for a condition block of a valid workflow are taken, the
workflow is valid again exactly if no two edges of the block collide, which they never do where the clauses
have canonical names (`valid_patchConfig_iff`).  Two edges that collide are seen in `crossed`.
-/

namespace Journey

set_option autoImplicit false

namespace Workflow

/-- With a patch, an edge of the block moves to a handle where another one stays, since no old clause has the
name of this handle. -/
def Collides (edges : List Edge) (block : String) (c : ConditionConfig) (patch : Fields) : Prop :=
  ∃ a ∈ edges, ∃ b ∈ edges, a.source = block ∧ b.source = block ∧ b.door ∉ c.clauses.map (·.id)
    ∧ Condition.newHandle? (c.clauses.map (·.id)) (c.patchedClauses patch) (c.patched patch).clauses a.door
        = some b.door

variable {edges : List Edge} {block : String} {c : ConditionConfig} {patch : Fields}
  {at? look? : String → Option Config} {w : Workflow}

/-- Edges of a block with canonical names never collide: what they may stay on is the last branch. -/
theorem Sound.not_collides (sound : Sound at? edges) (here : at? block = some (.condition c))
    (canonical : c.Canonical) : ¬ Collides edges block c patch := by
  rintro ⟨a, -, b, memB, -, leaves, unknown, moves⟩
  have last := (canonical.offers_iff.1 (sound.offers here memB leaves)).resolve_left unknown
  have mem := Condition.mem_of_newHandle? moves
  rw [last] at mem
  exact (c.handles_patched patch).elseBranch_not_mem mem

/-- Of sound edges, those that leave the block go to different doors, if none collide. -/
theorem door_eq_of_not_collides (free : ¬ Collides edges block c patch) {a b : Edge} (memA : a ∈ edges)
    (memB : b ∈ edges) (leavesA : a.source = block) (leavesB : b.source = block) {handle : String}
    (first : c.doorAfter? patch a.door = some handle) (second : c.doorAfter? patch b.door = some handle) :
    a.door = b.door := by
  rcases Condition.follow?_eq_some_iff.1 first with newA | ⟨-, unknownA, -, staysA⟩
  · rcases Condition.follow?_eq_some_iff.1 second with newB | ⟨-, unknownB, -, staysB⟩
    · exact Condition.newHandle?_inj (c.handles_patched patch).nodup newA newB
    · exact absurd ⟨a, memA, b, memB, leavesA, leavesB, unknownB, staysB ▸ newA⟩ free
  · rcases Condition.follow?_eq_some_iff.1 second with newB | ⟨-, -, -, staysB⟩
    · exact absurd ⟨b, memB, a, memA, leavesB, leavesA, unknownA, staysA ▸ newB⟩ free
    · exact staysA.trans staysB.symm

/-- If both edges leave the block, their doors do not lead to one. -/
def GoApart (block : String) (follow? : String → Option String) (a b : Edge) : Prop :=
  a.source = block → b.source = block → ∀ handle, follow? a.door = some handle → follow? b.door ≠ some handle

instance (block : String) (follow? : String → Option String) : Std.Symm (GoApart block follow?) :=
  ⟨fun _ _ apart leavesB leavesA handle goesB goesA => apart leavesA leavesB handle goesA goesB⟩

/-- Where the edges that have followed are sound, the doors of no two of the block have led to one. -/
theorem Sound.goApart {config : Config} {follow? : String → Option String}
    (sound : Sound look? (Editor.followClauses edges block config follow?))
    (here : look? block = some config) (kind : config.kind = .condition) :
    edges.Pairwise (GoApart block follow?) := by
  have doors := sound.doors_apart here kind
  rw [Editor.followClauses, List.pairwise_filterMap] at doors
  refine doors.imp fun {a b} apart leavesA leavesB handle goesA goesB => ?_
  refine apart (a.onBranch handle config) ?_ (b.onBranch handle config) ?_ ?_ ?_ ?_
  · simp [leavesA, goesA]
  · simp [leavesB, goesB]
  · simpa using leavesA
  · simpa using leavesB
  · simp

/-- Two edges that collide end up on one door. -/
theorem Collides.not_sound (collides : Collides edges block c patch)
    (here : look? block = some (c.patched patch)) :
    ¬ Sound look? (Editor.followClauses edges block (c.patched patch) (c.doorAfter? patch)) := by
  intro sound
  obtain ⟨a, memA, b, memB, leavesA, leavesB, unknown, moves⟩ := collides
  have known : a.door ∈ c.clauses.map (·.id) := by
    by_contra unknownA
    rw [Condition.newHandle?_eq_none unknownA] at moves
    cases moves
  have different : a ≠ b := fun same => unknown (same ▸ known)
  have accepted := Condition.accepts_iff.2 (.inl (Condition.mem_of_newHandle? moves))
  exact (sound.goApart here rfl).forall memA memB different leavesA leavesB b.door
    ((Condition.follow?_of_mem known).trans moves) (Condition.follow?_of_not_mem unknown accepted)

/-- The edges of a condition block stay sound with a patch exactly if no two collide. -/
theorem Sound.followPatch_iff (sound : Sound at? edges) (here : at? block = some (.condition c))
    (after : look? block = some (c.patched patch)) (elsewhere : ∀ id, id ≠ block → look? id = at? id) :
    Sound look? (Editor.followClauses edges block (c.patched patch) (c.doorAfter? patch))
      ↔ ¬ Collides edges block c patch := by
  constructor
  · exact fun sound collides => collides.not_sound after sound
  · intro free
    refine sound.followClauses ⟨here, after, rfl, elsewhere⟩ (fun door handle followed => ?_) ?_
    · exact Condition.accepts_of_follow? followed
    · intro a memA b memB leavesA leavesB handle first second
      exact door_eq_of_not_collides free memA memB leavesA leavesB first second

/-- Settings of the same kind leave the number of nodes of each kind as it is. -/
theorem countP_isA_updateNode (kind : NodeKind) {id : String} {f : Node → Node}
    (same : ∀ n, w.node? id = some n → (f n).kind = n.kind) :
    (w.updateNode id f).nodes.countP (·.isA kind) = w.nodes.countP (·.isA kind) := by
  have kinds : (w.updateNode id f).nodes.map Node.kind = w.nodes.map Node.kind :=
    map_replaceFirst Node.kind same
  have count (nodes : List Node) :
      nodes.countP (·.isA kind) = (nodes.map Node.kind).countP (· == kind) := by
    rw [List.countP_map]
    rfl
  rw [count, kinds, ← count]

end Workflow

/-- New settings for a condition block of a valid workflow are taken exactly if they can be read and name their
clauses plainly.  The workflow is then valid again exactly if no two edges of the block collide; where the clauses
have canonical names, none do. -/
theorem Editor.valid_patchConfig_iff (e : Editor) (valid : e.workflow.problems = []) {n : Node}
    {c : ConditionConfig} (mem : n ∈ e.workflow.nodes) (config : n.config = .condition c) (patch : Fields) :
    ((∃ f m, e.patchConfig n.id patch = .ok (f, m)) ↔ c.Takes patch)
      ∧ ∀ f m, e.patchConfig n.id patch = .ok (f, m) →
          (f.workflow.problems = [] ↔ ¬ Workflow.Collides e.workflow.edges n.id c patch)
            ∧ (c.Canonical → f.workflow.problems = []) := by
  obtain ⟨one, nodeIds, sound⟩ := (Workflow.problems_eq_nil_iff _).1 valid
  have found := Workflow.node?_of_mem nodeIds mem
  have here : Workflow.settings? e.workflow.nodes n.id = some (.condition c) :=
    (Workflow.settings?_eq_some_iff nodeIds).2 ⟨n, mem, rfl, config⟩
  have extent : (e.patchCondition n c patch).1.workflow.problems = []
      ↔ ¬ Workflow.Collides e.workflow.edges n.id c patch := by
    have settings := Workflow.settings?_updateNode nodeIds found (c.patched patch)
    have after := (settings n.id).trans (if_pos rfl)
    rw [← sound.followPatch_iff here after fun id other => (settings id).trans (if_neg other),
      Workflow.problems_eq_nil_iff]
    refine ⟨fun h => h.2.2, fun sound => ⟨?_, ?_, sound⟩⟩
    · refine (Workflow.countP_isA_updateNode .trigger fun m there => ?_).trans one
      rw [found, Option.some.injEq] at there
      rw [← there, Node.kind, Node.kind, config]
      rfl
    · have same : (e.workflow.updateNode n.id fun n => { n with config := c.patched patch }).nodeIds
          = e.workflow.nodeIds := Workflow.nodeIds_updateNode fun _ => rfl
      exact same ▸ nodeIds
  refine ⟨exists_patchConfig_iff found config, fun f m patched => ?_⟩
  obtain ⟨-, rfl, rfl⟩ := (patchConfig_of_condition found config).1 patched
  exact ⟨extent, fun canonical => extent.2 (sound.not_collides here canonical)⟩

/-- A block with canonical names may be patched in any way. -/
theorem Editor.valid_patchConfig_iff_shuffle :
    ∃ f m, (ofWorkflow .fourWays).patchConfig "s" shuffle = .ok (f, m) ∧ f.workflow.problems = [] := by
  have valid : Workflow.fourWays.problems = [] := by decide +kernel
  have mem : { id := "s", config := .condition .threefold } ∈ Workflow.fourWays.nodes :=
    List.mem_cons_of_mem _ List.mem_cons_self
  obtain ⟨accepts, keeps⟩ := valid_patchConfig_iff (ofWorkflow .fourWays) valid mem rfl shuffle
  have takes : ConditionConfig.threefold.Takes shuffle := by decide +kernel
  obtain ⟨f, m, patched⟩ := accepts.2 takes
  exact ⟨f, m, patched, (keeps f m patched).2 ConditionConfig.canonical_threefold⟩

/-- The settings of a block whose second clause has the name of the handle that the first one gets. -/
def ConditionConfig.crossed : ConditionConfig := { clauses := [{ id := "first" }, { id := "if" }] }

/-- A valid workflow with such a block, on both of whose clauses an edge leaves. -/
def Workflow.crossed : Workflow :=
  { id := "w"
    nodes := [{ id := "t", config := .trigger {} }, { id := "s", config := .condition .crossed },
      { id := "x", config := .exit {} }]
    edges := [{ id := "e", source := "t", target := "s" }, .branch "a" "if", .branch "b" "else_if_1"] }

/-- With a patch of nothing, the edge of the first branch moves to the second one, where the other edge stays. -/
theorem Editor.not_valid_patchConfig_crossed :
    Workflow.crossed.problems = []
      ∧ ∃ f m, (ofWorkflow .crossed).patchConfig "s" [] = .ok (f, m)
          ∧ f.workflow.edges.map (fun e => (e.id, e.door))
            = [("e", ""), ("a", "else_if_1"), ("b", "else_if_1")]
          ∧ f.workflow.problems = [.repeatedEdge "s" "x", .branchShared "else_if_1" ""] := by
  have takes : ConditionConfig.crossed.Takes [] := by decide +kernel
  have patched := (patchConfig_of_condition (e := ofWorkflow .crossed)
    (n := { id := "s", config := .condition .crossed }) rfl rfl).2 ⟨takes, rfl, rfl⟩
  exact ⟨by decide +kernel, _, _, patched, by decide +kernel, by decide +kernel⟩

end Journey
