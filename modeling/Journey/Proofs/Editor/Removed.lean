import Journey.Proofs.Editor.History

/-!
# Journey.Proofs.Editor.Removed -- three ways to take nodes out

Nodes are taken out one after the other, all at once as the selection, or in a batch that the canvas
reports.  Each way leaves out edges by a test of its own: those that touch the one node, those that touch a
node of the selection, and those that have lost an end when the batch is done.  One after the other is the
same as at once, whatever the workflow (`withoutNodes_withoutNodes`); a batch is the same as long as no
edge was loose before it (`withoutLooseEdges_withoutOnlyNodes`).

Main statement: on a workflow without loose edges, the three ways leave the same workflow
(`workflow_afterAll_removed`).
-/

namespace Journey

set_option autoImplicit false

namespace Workflow

variable {w : Workflow} {gone more : List String}

/-- Both ends of every edge are nodes. -/
def Attached (w : Workflow) : Prop := ∀ e ∈ w.edges, e.source ∈ w.nodeIds ∧ e.target ∈ w.nodeIds

theorem WellFormed.attached (h : w.WellFormed) : w.Attached := fun _ mem => h.ends mem

/-- The workflow without the nodes, and with all their edges. -/
def withoutOnlyNodes (w : Workflow) (gone : List String) : Workflow :=
  { w with nodes := w.nodes.filter fun n => !gone.contains n.id }

theorem nodeIds_withoutNodes (w : Workflow) (gone : List String) :
    (w.withoutNodes gone).nodeIds = w.nodeIds.filter fun id => !gone.contains id := by
  simp only [nodeIds, withoutNodes, List.filter_map]
  rfl

/-- Only which nodes are named matters, not in which order or how often. -/
theorem withoutNodes_congr (same : ∀ id, id ∈ gone ↔ id ∈ more) :
    w.withoutNodes gone = w.withoutNodes more := by
  have contains (id : String) : gone.contains id = more.contains id := by
    rw [Bool.eq_iff_iff, List.contains_iff_mem, List.contains_iff_mem, same]
  simp only [withoutNodes, contains]

/-- Where all edges have their ends, the names of what is no node do not matter. -/
theorem Attached.withoutNodes_congr (h : w.Attached) (same : ∀ id ∈ w.nodeIds, id ∈ gone ↔ id ∈ more) :
    w.withoutNodes gone = w.withoutNodes more := by
  have contains (id : String) (mem : id ∈ w.nodeIds) : gone.contains id = more.contains id := by
    rw [Bool.eq_iff_iff, List.contains_iff_mem, List.contains_iff_mem, same id mem]
  have nodes : w.nodes.filter (fun n => !gone.contains n.id)
      = w.nodes.filter fun n => !more.contains n.id :=
    List.filter_congr fun n mem => by rw [contains n.id (List.mem_map_of_mem mem)]
  have edges : w.edges.filter (fun e => !gone.contains e.source && !gone.contains e.target)
      = w.edges.filter fun e => !more.contains e.source && !more.contains e.target :=
    List.filter_congr fun e mem => by rw [contains _ (h e mem).1, contains _ (h e mem).2]
  rw [withoutNodes, withoutNodes, nodes, edges]

theorem withoutNodes_nil (w : Workflow) : w.withoutNodes [] = w := by
  simp [withoutNodes]

/-- To take nodes out one after the other is to take them out at once. -/
theorem withoutNodes_withoutNodes (w : Workflow) (gone more : List String) :
    (w.withoutNodes gone).withoutNodes more = w.withoutNodes (gone ++ more) := by
  simp only [withoutNodes, List.filter_filter, List.contains_append, Bool.not_or]
  congr 1
  · exact List.filter_congr fun n _ => Bool.and_comm ..
  · refine List.filter_congr fun e _ => ?_
    cases gone.contains e.source <;> cases gone.contains e.target <;> simp

theorem withoutOnlyNodes_withoutOnlyNodes (w : Workflow) (gone more : List String) :
    (w.withoutOnlyNodes gone).withoutOnlyNodes more = w.withoutOnlyNodes (gone ++ more) := by
  simp only [withoutOnlyNodes, List.filter_filter, List.contains_append, Bool.not_or]
  congr 1
  exact List.filter_congr fun n _ => Bool.and_comm ..

/-- What is no node is not missed. -/
theorem withoutOnlyNodes_of_unknown (unknown : ∀ id ∈ gone, id ∉ w.nodeIds) :
    w.withoutOnlyNodes gone = w := by
  have nodes : w.nodes.filter (fun n => !gone.contains n.id) = w.nodes := by
    refine List.filter_eq_self.2 fun n mem => ?_
    have stays : n.id ∉ gone := fun named => unknown n.id named (List.mem_map_of_mem mem)
    simpa using stays
  rw [withoutOnlyNodes, nodes]

/-- Where no edge was loose, exactly the edges of the nodes that are gone are loose. -/
theorem Attached.withoutLooseEdges_withoutOnlyNodes (h : w.Attached) (gone : List String) :
    (w.withoutOnlyNodes gone).withoutLooseEdges = w.withoutNodes gone := by
  have stays (id : String) (mem : id ∈ w.nodeIds) :
      (w.withoutOnlyNodes gone).hasNode id = !gone.contains id := by
    have nodeIds : (w.withoutOnlyNodes gone).nodeIds = w.nodeIds.filter fun id => !gone.contains id :=
      nodeIds_withoutNodes w gone
    rw [Bool.eq_iff_iff, hasNode, List.contains_iff_mem, nodeIds, List.mem_filter]
    exact and_iff_right mem
  have edges : w.edges.filter (fun e => (w.withoutOnlyNodes gone).hasNode e.source
        && (w.withoutOnlyNodes gone).hasNode e.target)
      = w.edges.filter fun e => !gone.contains e.source && !gone.contains e.target :=
    List.filter_congr fun e mem => by rw [stays _ (h e mem).1, stays _ (h e mem).2]
  exact congrArg (fun edges => { w.withoutOnlyNodes gone with edges }) edges

end Workflow

/-! ## Batches of removals -/

namespace NodeChange

/-- A batch of removals takes the nodes out, and has changed something if one of them was there. -/
theorem applyAll_removed (p : Progress) (batch : List String) :
    applyAll p (batch.map .removed)
      = { p with
          workflow := p.workflow.withoutOnlyNodes batch
          changed := p.changed || batch.any p.workflow.hasNode } := by
  induction batch generalizing p with
  | nil => simp [applyAll, Workflow.withoutOnlyNodes]
  | cons id batch ih =>
    have applied : (NodeChange.removed id).apply p.workflow
        = .ok (p.workflow.withoutOnlyNodes [id], p.workflow.hasNode id) := by
      simp only [apply, Workflow.withoutOnlyNodes, List.contains_cons, List.contains_nil, Bool.or_false]
      rfl
    have changed : (p.workflow.hasNode id || batch.any (p.workflow.withoutOnlyNodes [id]).hasNode)
        = (id :: batch).any p.workflow.hasNode := by
      cases there : p.workflow.hasNode id with
      | true => simp [there]
      | false =>
        -- what is not there is not missed by those after it
        have unknown : ∀ other ∈ [id], other ∉ p.workflow.nodeIds := by
          intro other mem
          rw [List.mem_singleton.1 mem, ← List.contains_iff_mem]
          exact Bool.eq_false_iff.1 there
        rw [Workflow.withoutOnlyNodes_of_unknown unknown, List.any_cons, there]
    rw [List.map_cons, applyAll, applied]
    dsimp only
    rw [ih, Workflow.withoutOnlyNodes_withoutOnlyNodes, Bool.or_assoc, changed]
    rfl

end NodeChange

namespace Editor

variable {e : Editor} {id : String} {gone : List String}

/-- Nodes that are taken out one after the other, none of them twice, are all taken out. -/
theorem performAll_removeNode {order : List String} (distinct : order.Nodup)
    (known : ∀ id ∈ order, id ∈ e.workflow.nodeIds) (ids : IdSource) :
    (∀ o ∈ ((e.performAll (order.map .removeNode)).run ids).1, o.answer = .ok .done)
      ∧ ((e.afterAll (order.map .removeNode)).run ids).1.workflow = e.workflow.withoutNodes order := by
  induction order generalizing e ids with
  | nil =>
    refine ⟨fun o mem => absurd mem List.not_mem_nil, ?_⟩
    rw [Workflow.withoutNodes_nil]
    rfl
  | cons id order ih =>
    obtain ⟨new, distinct⟩ := List.nodup_cons.1 distinct
    obtain ⟨there, known⟩ := List.forall_mem_cons.1 known
    have removed : (e.perform (.removeNode id)).run ids
        = (⟨e.record (e.workflow.withoutNodes [id]), .ok .done⟩, ids) := by
      show (Outcome.ofDone e (e.removeNode id), ids) = _
      rw [removeNode_eq_ok_iff.2 ⟨there, rfl⟩]
      rfl
    have left : ∀ other ∈ order, other ∈ (e.record (e.workflow.withoutNodes [id])).workflow.nodeIds := by
      intro other mem
      have apart : other ≠ id := fun same => new (same ▸ mem)
      rw [workflow_record, Workflow.nodeIds_withoutNodes, List.mem_filter]
      exact ⟨known other mem, by simpa using apart⟩
    obtain ⟨answers, workflow⟩ := ih distinct left ids
    rw [List.map_cons, run_performAll_cons, run_afterAll_cons, removed]
    refine ⟨List.forall_mem_cons.2 ⟨rfl, answers⟩, ?_⟩
    rw [workflow, workflow_record, Workflow.withoutNodes_withoutNodes]
    rfl

theorem sameMembers_iff {as bs : List String} :
    Selection.sameMembers as bs = true ↔ ∀ a, a ∈ as ↔ a ∈ bs := by
  simp only [Selection.sameMembers, Bool.and_eq_true, List.all_eq_true, List.contains_iff_mem]
  exact ⟨fun both a => ⟨both.1 a, both.2 a⟩, fun same => ⟨fun a => (same a).1, fun a => (same a).2⟩⟩

/-- What is selected is selected, in this order or as it was selected before. -/
theorem selection_select (e : Editor) (s : Selection) :
    (∀ id, id ∈ (e.select s).selection.nodes ↔ id ∈ s.nodes)
      ∧ ∀ id, id ∈ (e.select s).selection.edges ↔ id ∈ s.edges := by
  unfold select
  split
  · next same =>
    rw [Selection.same, Bool.and_eq_true, sameMembers_iff, sameMembers_iff] at same
    exact ⟨fun id => (same.1 id).symm, fun id => (same.2 id).symm⟩
  · exact ⟨fun _ => .rfl, fun _ => .rfl⟩

theorem workflow_select (e : Editor) (s : Selection) : (e.select s).workflow = e.workflow :=
  holds_select (p := fun f => f.workflow = e.workflow) rfl rfl

/-- What is selected is taken out, which is nothing if nothing is selected. -/
theorem workflow_removeSelection (e : Editor) :
    e.removeSelection.workflow
      = (e.workflow.withoutNodes e.selection.nodes).withoutEdges e.selection.edges := by
  unfold removeSelection
  split
  · next void =>
    rw [Selection.isEmpty, Bool.and_eq_true, List.isEmpty_iff, List.isEmpty_iff] at void
    rw [void.1, void.2, Workflow.withoutNodes_nil]
    simp [Workflow.withoutEdges]
  · rfl

/-- Nodes that are taken out as the selection. -/
theorem workflow_removeSelection_select (e : Editor) (selected : List String) :
    (e.select { nodes := selected }).removeSelection.workflow = e.workflow.withoutNodes selected := by
  obtain ⟨nodes, edges⟩ := e.selection_select { nodes := selected }
  have noEdges : (e.select { nodes := selected }).selection.edges = [] :=
    List.eq_nil_iff_forall_not_mem.2 fun id mem => List.not_mem_nil ((edges id).1 mem)
  rw [workflow_removeSelection, workflow_select, noEdges, Workflow.withoutNodes_congr nodes]
  simp [Workflow.withoutEdges]

/-- Nodes that are taken out in a batch. -/
theorem workflow_applyNodeChanges_removed (attached : e.workflow.Attached) (batch : List String) :
    (e.applyNodeChanges (batch.map .removed)).1.workflow = e.workflow.withoutNodes batch := by
  rw [applyNodeChanges, NodeChange.applyAll_removed]
  dsimp only
  rw [Bool.false_or]
  cases changed : batch.any e.workflow.hasNode with
  | false =>
    -- a batch that names no node is as good as none
    have unlisted : ∀ id ∈ e.workflow.nodeIds, id ∈ batch ↔ id ∈ ([] : List String) := by
      intro id there
      refine iff_of_false (fun mem => ?_) List.not_mem_nil
      simp only [List.any_eq_false, Workflow.hasNode, List.contains_iff_mem] at changed
      exact changed id mem there
    rw [attached.withoutNodes_congr unlisted, Workflow.withoutNodes_nil]
    rfl
  | true =>
    have recorded : (batch.map NodeChange.removed).any (·.isRemoval) = true := by
      obtain ⟨id, mem, -⟩ := List.any_eq_true.1 changed
      exact List.any_eq_true.2 ⟨.removed id, List.mem_map_of_mem mem, rfl⟩
    rw [recorded]
    exact attached.withoutLooseEdges_withoutOnlyNodes batch

/-- On a workflow without loose edges, nodes that are taken out one after the other in any order, as the
selection, or in a batch that may name some twice and others that are no nodes, leave the same workflow:
the other nodes and the edges that touch none of those, in their order. -/
theorem workflow_afterAll_removed (attached : e.workflow.Attached)
    (known : ∀ id ∈ gone, id ∈ e.workflow.nodeIds) (ids : IdSource) :
    (∀ order : List String, order.Nodup → (∀ id, id ∈ order ↔ id ∈ gone) →
        (∀ o ∈ ((e.performAll (order.map .removeNode)).run ids).1, o.answer = .ok .done)
          ∧ ((e.afterAll (order.map .removeNode)).run ids).1.workflow = e.workflow.withoutNodes gone)
      ∧ (∀ selected : List String, (∀ id, id ∈ selected ↔ id ∈ gone) →
          ((e.afterAll [.select { nodes := selected }, .removeSelection]).run ids).1.workflow
            = e.workflow.withoutNodes gone)
      ∧ (∀ batch : List String, (∀ id ∈ e.workflow.nodeIds, id ∈ batch ↔ id ∈ gone) →
          ((e.afterAll [.applyNodeChanges (batch.map .removed)]).run ids).1.workflow
            = e.workflow.withoutNodes gone)
      ∧ ∀ edge ∈ e.workflow.edges,
          edge ∈ (e.workflow.withoutNodes gone).edges ↔ edge.source ∉ gone ∧ edge.target ∉ gone := by
  refine ⟨fun order distinct same => ?_, fun selected same => ?_, fun batch same => ?_,
    fun edge mem => ?_⟩
  · rw [← Workflow.withoutNodes_congr same]
    exact performAll_removeNode distinct (fun id mem => known id ((same id).1 mem)) ids
  · rw [← Workflow.withoutNodes_congr same]
    exact e.workflow_removeSelection_select selected
  · rw [← attached.withoutNodes_congr same]
    exact workflow_applyNodeChanges_removed attached batch
  · rw [Workflow.mem_edges_withoutNodes]
    exact and_iff_right mem

end Editor

/-- Two pauses in a row. -/
def Workflow.twoPauses : Workflow :=
  { id := "w"
    nodes := [{ id := "t", config := .trigger {} }, { id := "a", config := .wait {} },
      { id := "b", config := .wait {} }, { id := "x", config := .exit {} }]
    edges := [{ id := "e1", source := "t", target := "a" }, { id := "e2", source := "a", target := "b" },
      { id := "e3", source := "b", target := "x" }] }

/-- The second pause and the exit are taken out in three ways; the edge to the first pause stays. -/
theorem Editor.workflow_afterAll_removed_twoPauses :
    (((ofWorkflow .twoPauses).afterAll [.removeNode "x", .removeNode "b"]).run .strokes).1.workflow
        = Workflow.twoPauses.withoutNodes ["b", "x"]
      ∧ (((ofWorkflow .twoPauses).afterAll [.select { nodes := ["x", "b", "x"] }, .removeSelection]).run
          .strokes).1.workflow = Workflow.twoPauses.withoutNodes ["b", "x"]
      ∧ (((ofWorkflow .twoPauses).afterAll
          [.applyNodeChanges [.removed "x", .removed "?", .removed "b", .removed "x"]]).run
            .strokes).1.workflow = Workflow.twoPauses.withoutNodes ["b", "x"]
      ∧ { id := "e1", source := "t", target := "a" } ∈ (Workflow.twoPauses.withoutNodes ["b", "x"]).edges := by
  have attached : (ofWorkflow .twoPauses).workflow.Attached := by
    unfold Workflow.Attached
    decide
  have known : ∀ id ∈ ["b", "x"], id ∈ (ofWorkflow .twoPauses).workflow.nodeIds := by decide
  obtain ⟨oneByOne, selected, batch, edges⟩ := workflow_afterAll_removed attached known .strokes
  refine ⟨(oneByOne ["x", "b"] (by decide) ?_).2, selected ["x", "b", "x"] ?_,
    batch ["x", "?", "b", "x"] (by decide), (edges _ ?_).2 (by decide)⟩
  · simp [or_comm]
  · intro id
    simp only [List.mem_cons, List.not_mem_nil, or_false]
    tauto
  · exact List.mem_cons_self

end Journey
