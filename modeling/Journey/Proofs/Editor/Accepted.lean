import Journey.Editor.Command
import Journey.Proofs.Editor.Settled

/-!
# Journey.Proofs.Editor.Accepted -- what an edit does when it is accepted

An edit that can be refused has one lemma that says when it is accepted and what it leaves
(`addNode_eq_ok_iff`, `patchConfig_eq_ok_iff`); an edit that always goes through has one that lists the editors
it may leave (`holds_applyNodeChanges`, `holds_paste`).  Whatever an edit keeps is proved from its lemma: that
workflows stay settled, that a change is recorded, that nothing is highlighted anew, that what is selected is
there.
-/

namespace Journey

set_option autoImplicit false

namespace Workflow

variable {w : Workflow} {id : String}

theorem exists_node?_iff : (∃ n, w.node? id = some n) ↔ id ∈ w.nodeIds := by
  simp [← Option.isSome_iff_exists, node?, nodeIds]

theorem exists_edge?_iff : (∃ edge, w.edge? id = some edge) ↔ id ∈ w.edgeIds := by
  simp [← Option.isSome_iff_exists, edge?, edgeIds]

end Workflow

/-- Whether a condition block takes a patch: its clauses can then be read, and none has a list or an object
for an identifier. -/
def ConditionConfig.Takes (c : ConditionConfig) (patch : Fields) : Prop :=
  Condition.Legible (.object (c.patchedRow patch))
    ∧ ∀ d ∈ c.patchedClauses patch, Condition.compoundId? d = none

instance (c : ConditionConfig) (patch : Fields) : Decidable (c.Takes patch) :=
  inferInstanceAs (Decidable (_ ∧ _))

namespace Editor

variable {e f : Editor} {n m : Node} {edge last : Edge} {id : String} {p : Editor → Prop}

/-! ## Blocks -/

theorem requireNode_eq_ok_iff : e.requireNode id = .ok n ↔ e.workflow.node? id = some n := by
  unfold requireNode
  split
  · next m found => rw [found, Except.ok.injEq, Option.some.injEq]
  · next absent => simp [absent]

/-- A block that is added is the last of the workflow afterwards. -/
theorem addNode_eq_ok_iff :
    e.addNode n = .ok (f, m) ↔
      (n.isA .trigger = true → e.workflow.trigger? = none) ∧ n.id ∉ e.workflow.nodeIds
        ∧ e.record (e.workflow.addNode n) (some (.node n.id)) = f ∧ n = m := by
  unfold addNode
  by_cases second : n.isA .trigger = true ∧ e.workflow.trigger?.isSome = true
  · simp [second.1, second.2]
    intro noTrigger
    simp [noTrigger] at second
  · have single : n.isA .trigger = true → e.workflow.trigger? = none := by
      intro isTrigger
      rw [← Option.not_isSome_iff_eq_none]
      exact fun taken => second ⟨isTrigger, taken⟩
    rw [← Bool.and_eq_true] at second
    by_cases used : n.id ∈ e.workflow.nodeIds
    · simp [second, Workflow.hasNode, used]
    · simp [second, Workflow.hasNode, used]
      exact fun _ _ => single

/-- A patch names only what may be changed, and the block takes all of it. -/
theorem patchNode_eq_ok_iff {patch : Fields} :
    e.patchNode id patch = .ok (f, m) ↔
      (∀ k ∈ Fields.keys patch, k ∈ Node.patchable)
        ∧ (∃ n, e.workflow.node? id = some n ∧ n.patched patch = .ok m)
        ∧ e.record (e.workflow.updateNode id fun _ => m) = f := by
  unfold patchNode
  split
  · next allowed =>
    have known : ∀ k ∈ Fields.keys patch, k ∈ Node.patchable := by
      simpa [List.filter_eq_nil_iff] using allowed
    simp only [bind_eq_ok_iff, requireNode_eq_ok_iff]
    constructor
    · rintro ⟨n, found, n', changed, done⟩
      cases done
      exact ⟨known, ⟨n, found, changed⟩, rfl⟩
    · rintro ⟨-, ⟨n, found, changed⟩, rfl⟩
      exact ⟨n, found, m, changed, rfl⟩
  · next unknown refused =>
    refine iff_of_false nofun fun ⟨known, _⟩ => refused ?_
    simpa [List.filter_eq_nil_iff] using known

theorem requirePlainIds_eq_ok_iff {patched : List Document} {u : Unit} :
    Condition.requirePlainIds patched = .ok u ↔ ∀ d ∈ patched, Condition.compoundId? d = none := by
  rw [← List.findSome?_eq_none_iff, Condition.requirePlainIds]
  cases patched.findSome? Condition.compoundId? <;> simp

/-- The edges of a condition block follow its clauses, if it takes these; all other blocks only take other
settings. -/
theorem patchConfig_eq_ok_iff {patch : Fields} :
    e.patchConfig id patch = .ok (f, m) ↔ ∃ n, e.workflow.node? id = some n
      ∧ ((∃ c, n.config = .condition c ∧ c.Takes patch ∧ e.patchCondition n c patch = (f, m))
        ∨ n.kind ≠ .condition ∧ ∃ config, n.config.amend patch = .valid config
          ∧ e.record (e.workflow.updateNode id fun n => { n with config }) = f ∧ { n with config } = m) := by
  unfold patchConfig
  simp only [bind_eq_ok_iff, requireNode_eq_ok_iff]
  refine exists_congr fun n => and_congr_right fun _ => ?_
  cases config : n.config with
  | condition c =>
    simp [Node.kind, config, Config.kind, bind_eq_ok_iff, Conversion.orRefuse_eq_ok_iff,
      requirePlainIds_eq_ok_iff, ConditionConfig.Takes, Condition.Legible, and_assoc, pure, Except.pure]
  | _ => simp [Node.kind, config, Config.kind, bind_eq_ok_iff, orRefuse_eq_ok_iff, pure, Except.pure]

/-- A block that is in its place already is not moved. -/
theorem moveNode_eq_ok_iff {d : Document} :
    e.moveNode id d = .ok f ↔ ∃ n position, e.workflow.node? id = some n
      ∧ Position.read d = .valid position
      ∧ (if n.position.agrees position then e
          else e.touch (e.workflow.updateNode id fun n => { n with position })) = f := by
  unfold moveNode
  simp only [bind_eq_ok_iff, requireNode_eq_ok_iff, orRefuse_eq_ok_iff, pure, Except.pure,
    Except.ok.injEq, exists_and_left]

theorem removeNode_eq_ok_iff :
    e.removeNode id = .ok f ↔ id ∈ e.workflow.nodeIds ∧ e.record (e.workflow.withoutNodes [id]) = f := by
  unfold removeNode
  simp only [bind_eq_ok_iff, requireNode_eq_ok_iff, ← Workflow.exists_node?_iff, pure, Except.pure,
    Except.ok.injEq, exists_and_right]

/-- Nothing is removed if nothing is selected. -/
theorem holds_removeSelection (same : p e)
    (recorded : p (e.record
      ((e.workflow.withoutNodes e.selection.nodes).withoutEdges e.selection.edges) (some {}))) :
    p e.removeSelection := by
  unfold removeSelection
  split
  · exact same
  · exact recorded

/-- A batch with a removal is recorded as a whole or not carried out; one without leaves no trace, and where
it is refused the workflow it came to is there all the same. -/
theorem holds_applyNodeChanges {changes : List NodeChange} (same : p e)
    (recorded : changes.any (·.isRemoval) = true →
      p (e.record (NodeChange.applyAll { workflow := e.workflow } changes).workflow.withoutLooseEdges))
    (touched : changes.any (·.isRemoval) = false →
      p (e.touch (NodeChange.applyAll { workflow := e.workflow } changes).workflow))
    (repainted : changes.any (·.isRemoval) = false →
      (NodeChange.applyAll { workflow := e.workflow } changes).refusal ≠ none →
      p (e.repaint (NodeChange.applyAll { workflow := e.workflow } changes).workflow)) :
    p (e.applyNodeChanges changes).1 := by
  unfold applyNodeChanges
  dsimp only
  split
  · next refusal refused =>
    split
    · exact same
    · next moves => exact repainted (by simpa using moves) (by simp [refused])
  · split
    · exact same
    · split
      · next removes => exact recorded removes
      · next moves => exact touched (by simpa using moves)

/-! ## Edges -/

theorem requireEdge_eq_ok_iff : e.requireEdge id = .ok edge ↔ e.workflow.edge? id = some edge := by
  unfold requireEdge
  split
  · next found => rw [found, Except.ok.injEq, Option.some.injEq]
  · next absent => simp [absent]

/-- An edge that is added is the last of the workflow afterwards, with the label that it is granted if it has
none of its own. -/
theorem addEdge_eq_ok_iff :
    e.addEdge edge = .ok (f, last) ↔ edge.id ∉ e.workflow.edgeIds
      ∧ Conversion.Succeed ((connectionOf edge).conversions e.workflow.nodes e.workflow.edges)
      ∧ (∃ granted, (connectionOf edge).check e.workflow.nodes e.workflow.edges = .ok granted
        ∧ labelled edge granted.label = last)
      ∧ e.record (e.workflow.addEdge last) (some (.edge last.id)) = f := by
  unfold addEdge
  by_cases used : edge.id ∈ e.workflow.edgeIds
  · have there : e.workflow.hasEdge edge.id = true := by simpa [Workflow.hasEdge] using used
    rw [there]
    constructor
    · intro done
      cases done
    · intro new
      exact absurd used new.1
  · have new : e.workflow.hasEdge edge.id = false := by simpa [Workflow.hasEdge] using used
    simp only [new, Bool.false_eq_true, if_false, used, not_false_eq_true, true_and, bind_eq_ok_iff,
      Conversion.orRefuse_eq_ok_iff, exists_const]
    refine and_congr_right fun _ => ?_
    cases (connectionOf edge).check e.workflow.nodes e.workflow.edges with
    | error reason => simp
    | ok granted =>
      constructor
      · intro done
        cases done
        exact ⟨⟨granted, rfl, rfl⟩, rfl⟩
      · rintro ⟨⟨_, same, rfl⟩, rfl⟩
        cases same
        rfl

theorem removeEdge_eq_ok_iff :
    e.removeEdge id = .ok f ↔ id ∈ e.workflow.edgeIds ∧ e.record (e.workflow.withoutEdges [id]) = f := by
  unfold removeEdge
  simp only [bind_eq_ok_iff, requireEdge_eq_ok_iff, ← Workflow.exists_edge?_iff, pure, Except.pure,
    Except.ok.injEq, exists_and_right]

/-- Nothing is removed if none of the edges is there. -/
theorem holds_applyEdgeChanges {removed : List String} (same : p e)
    (recorded : p (e.record (e.workflow.withoutEdges removed))) : p (e.applyEdgeChanges removed) := by
  unfold applyEdgeChanges
  split
  · exact recorded
  · exact same

/-! ## The workflow as a whole -/

theorem describe_eq_ok_iff {name : Option String} {status : Document} {version : Option Int} :
    e.describe name status version = .ok f ↔ ∃ s, readStatus e.workflow.status status = .ok s
      ∧ e.record { e.workflow with
          name := name.getD e.workflow.name, status := s, version := version.getD e.workflow.version } = f := by
  unfold describe
  simp only [bind_eq_ok_iff, pure, Except.pure, Except.ok.injEq]

/-- Another selection is taken unless the same is selected. -/
theorem holds_select {s : Selection} (same : p e)
    (other : p { e with timeline := e.timeline.replace { e.timeline.present with selection := s } }) :
    p (e.select s) := by
  unfold select
  split
  · exact same
  · exact other

/-- Nothing is copied if no node is selected. -/
theorem holds_copy (same : p e)
    (copied : p { e with clipboard := some (Clip.ofWorkflow e.workflow e.selection.nodes) }) :
    p e.copy.1 := by
  unfold copy
  dsimp only
  split
  · exact same
  · exact copied

theorem run_paste_of_none (void : e.clipboard = none) (ids : IdSource) :
    e.paste.run ids = ((e, none), ids) := by
  rw [paste, void]
  rfl

/-- A copy of what is on the clipboard is inserted if it is not void. -/
theorem run_paste {clip : Clip} (copied : e.clipboard = some clip) (ids : IdSource) :
    let copy := (clip.copy e.limits.pasteOffset).run ids
    e.paste.run ids = (if copy.1.nodes.isEmpty then (e, none) else (e.insert copy.1, some copy.1), copy.2) := by
  rw [paste, copied]
  rfl

theorem holds_paste {ids : IdSource} (same : p e)
    (inserted : ∀ clip, e.clipboard = some clip →
      p (e.insert ((clip.copy e.limits.pasteOffset).run ids).1)) : p (e.paste.run ids).1.1 := by
  cases copied : e.clipboard with
  | none =>
    rw [run_paste_of_none copied]
    exact same
  | some clip =>
    rw [run_paste copied]
    dsimp only
    split
    · exact same
    · exact inserted clip copied

theorem autoLayout_eq_ok_iff :
    e.autoLayout = .ok f ↔
      Conversion.Succeed e.workflow.layoutConversions ∧ e.record (e.laidOut e.workflow) = f := by
  unfold autoLayout
  simp only [bind_eq_ok_iff, Conversion.orRefuse_eq_ok_iff, pure, Except.pure, Except.ok.injEq, exists_const]

theorem dryRun_eq_ok_iff {context : Fields} {rolls : Nat → Float} {s : Simulation} :
    e.dryRun context rolls = .ok (f, s) ↔ ∃ contact, Contact.decode context = .valid contact
      ∧ e.workflow.trySimulate contact rolls e.limits.simulationSteps = .ok s ∧ e.showRun s = f := by
  unfold dryRun
  simp only [bind_eq_ok_iff, orRefuse_eq_ok_iff, Overlong.orRefuse_eq_ok_iff, pure, Except.pure,
    Except.ok.injEq, Prod.mk.injEq]
  refine exists_congr fun contact => and_congr_right fun _ => ?_
  constructor
  · rintro ⟨_, ran, shown, rfl⟩
    exact ⟨ran, shown⟩
  · rintro ⟨ran, shown⟩
    exact ⟨s, ran, shown, rfl⟩

/-- What is stored is what the store accepts. -/
theorem save_eq_ok_iff {store : SaveSnapshot → Except String Unit} {now : Instant} {kept : SaveSnapshot} :
    e.save store now = .ok (f, kept) ↔
      e.saveSnapshot = .ok kept ∧ store kept = .ok () ∧ e.markSaved none now = f := by
  unfold save
  rw [bind_eq_ok_iff]
  constructor
  · rintro ⟨s, taken, done⟩
    cases stored : store s with
    | error cause => simp [stored] at done
    | ok _ =>
      simp only [stored, pure, Except.pure, Except.ok.injEq, Prod.mk.injEq] at done
      obtain ⟨marked, rfl⟩ := done
      exact ⟨taken, stored, marked⟩
  · rintro ⟨taken, stored, rfl⟩
    exact ⟨kept, taken, by simp [stored, pure, Except.pure]⟩

end Editor

end Journey
