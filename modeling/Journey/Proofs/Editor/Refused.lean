import Journey.Proofs.Editor.History

/-!
# Journey.Proofs.Editor.Refused -- what a refused command leaves behind

A command that is refused leaves the editor as it was, with one exception.  A batch of moves is carried
out on the workflow itself, one report after the other, so that when one of them cannot be read those
before it have happened.  They are not taken back: the workflow is the one that they lead to when they
are a batch of their own (`workflow_applyAll_fault`), and nothing else of the editor has noticed, neither
the history nor the revision nor whether there is something to save.

Main statement: a refused command changes nothing exactly if it is no such batch, or the moves before the
fault moved nothing; and in no case does it change more than places (`perform_of_refused_iff`).
-/

namespace Journey

set_option autoImplicit false

/-! ## Workflows but for the places of their nodes -/

namespace Workflow

/-- The workflow with every node at the origin. -/
def unplaced (w : Workflow) : Workflow :=
  { w with nodes := w.nodes.map fun n => { n with position := {} } }

theorem unplaced_updateNode (w : Workflow) (id : String) (position : Position) :
    (w.updateNode id fun n => { n with position }).unplaced = w.unplaced := by
  have nodes : (replaceFirst id (fun n => { n with position }) w.nodes).map
        (fun n => { n with position := {} })
      = w.nodes.map fun n => { n with position := {} } :=
    map_replaceFirst (fun n : Node => ({ n with position := {} } : Node)) fun _ _ => rfl
  exact congrArg (fun nodes => { w with nodes }) nodes

end Workflow

/-! ## Batches with a fault -/

namespace NodeChange

/-- A move to a place that cannot be read. -/
def IsFaulty : NodeChange → Prop
  | .moved _ d => ∃ places, Position.read d = .faulty places
  | _ => False

variable {w v : Workflow} {c fault : NodeChange} {cs before after : List NodeChange} {p : Progress}
  {refusal : Refusal}

theorem exists_apply_eq_error (faulty : c.IsFaulty) (w : Workflow) :
    ∃ refusal, c.apply w = .error refusal := by
  cases c with
  | moved id d =>
    obtain ⟨places, read⟩ := faulty
    exact ⟨.faulty places, by rw [apply, read]; rfl⟩
  | _ => exact faulty.elim

theorem isFaulty_of_apply (h : c.apply w = .error refusal) : c.IsFaulty := by
  cases c with
  | moved id d =>
    cases read : Position.read d with
    | faulty places => exact ⟨places, read⟩
    | valid position =>
      rw [apply, read] at h
      cases h
  | _ => cases h

/-- A move is no change of the workflow, or puts a node in another place. -/
theorem apply_moved_cases {id : String} {d : Document} {changed : Bool}
    (h : (moved id d).apply w = .ok (v, changed)) :
    (v = w ∧ changed = false)
      ∨ ∃ position, v = (w.updateNode id fun n => { n with position }) ∧ changed = true := by
  cases read : Position.read d with
  | faulty places =>
    rw [apply, read] at h
    cases h
  | valid position =>
    cases found : w.node? id with
    | none =>
      simp only [apply, read, Checked.orRefuse, Except.map, found] at h
      cases h
      exact .inl ⟨rfl, rfl⟩
    | some n =>
      simp only [apply, read, Checked.orRefuse, Except.map, found] at h
      split at h
      · cases h
        exact .inl ⟨rfl, rfl⟩
      · cases h
        exact .inr ⟨position, rfl, rfl⟩

/-- What is reported as no change is none. -/
theorem eq_of_apply (h : c.apply w = .ok (v, false)) : v = w := by
  cases c with
  | shown =>
    cases h
    rfl
  | removed id =>
    injection h with same
    injection same with same absent
    have all : (w.nodes.filter fun n => n.id != id) = w.nodes := by
      refine List.filter_eq_self.2 fun n mem => ?_
      rw [bne_iff_ne]
      rintro rfl
      have there : w.hasNode n.id = true :=
        List.contains_iff_mem.2 (List.mem_map_of_mem mem)
      rw [there] at absent
      cases absent
    rw [← same, all]
  | moved id d =>
    rcases apply_moved_cases h with ⟨same, -⟩ | ⟨_, -, impossible⟩
    · exact same
    · cases impossible

/-- A report that is no removal at most moves a node. -/
theorem unplaced_apply (stays : c.isRemoval = false) {changed : Bool}
    (h : c.apply w = .ok (v, changed)) : v.unplaced = w.unplaced := by
  cases c with
  | shown =>
    cases h
    rfl
  | removed id => cases stays
  | moved id d =>
    rcases apply_moved_cases h with ⟨rfl, -⟩ | ⟨position, rfl, -⟩
    · rfl
    · exact w.unplaced_updateNode id position

/-- Reports that can be read are gone through to the end, and what follows them goes on from there. -/
theorem applyAll_append (readable : ∀ c ∈ before, ¬ c.IsFaulty) (after : List NodeChange) (p : Progress) :
    applyAll p (before ++ after) = applyAll (applyAll p before) after := by
  induction before generalizing p with
  | nil => rfl
  | cons c before ih =>
    obtain ⟨first, rest⟩ := List.forall_mem_cons.1 readable
    rw [List.cons_append, applyAll, applyAll]
    cases applied : c.apply p.workflow with
    | error refusal => exact absurd (isFaulty_of_apply applied) first
    | ok out => exact ih rest _

/-- A batch of reports that can be read is not refused. -/
theorem refusal_applyAll (readable : ∀ c ∈ cs, ¬ c.IsFaulty) (p : Progress) :
    (applyAll p cs).refusal = p.refusal := by
  induction cs generalizing p with
  | nil => rfl
  | cons c cs ih =>
    obtain ⟨first, rest⟩ := List.forall_mem_cons.1 readable
    rw [applyAll]
    cases applied : c.apply p.workflow with
    | error refusal => exact absurd (isFaulty_of_apply applied) first
    | ok out => exact ih rest _

/-- A batch ends where it cannot be read, with the workflow that the reports before that lead to. -/
theorem workflow_applyAll_fault (readable : ∀ c ∈ before, ¬ c.IsFaulty) (faulty : fault.IsFaulty)
    (after : List NodeChange) (p : Progress) :
    (applyAll p (before ++ fault :: after)).workflow = (applyAll p before).workflow := by
  obtain ⟨refusal, refused⟩ := exists_apply_eq_error faulty (applyAll p before).workflow
  rw [applyAll_append readable, applyAll, refused]

/-- Every list of reports can be read, or there is a first one that cannot. -/
theorem readable_or_fault (cs : List NodeChange) :
    (∀ c ∈ cs, ¬ c.IsFaulty)
      ∨ ∃ before fault after, cs = before ++ fault :: after
          ∧ (∀ c ∈ before, ¬ c.IsFaulty) ∧ fault.IsFaulty := by
  induction cs with
  | nil => exact .inl (by simp)
  | cons c cs ih =>
    by_cases faulty : c.IsFaulty
    · exact .inr ⟨[], c, cs, rfl, by simp, faulty⟩
    · rcases ih with readable | ⟨before, fault, after, rfl, readable, faulty'⟩
      · exact .inl (List.forall_mem_cons.2 ⟨faulty, readable⟩)
      · exact .inr ⟨c :: before, fault, after, rfl, List.forall_mem_cons.2 ⟨faulty, readable⟩, faulty'⟩

/-- A batch that is said to change nothing changes nothing. -/
theorem workflow_applyAll_of_unchanged (h : (applyAll p cs).changed = false) :
    p.changed = false ∧ (applyAll p cs).workflow = p.workflow := by
  induction cs generalizing p with
  | nil => exact ⟨h, rfl⟩
  | cons c cs ih =>
    rw [applyAll] at h ⊢
    cases applied : c.apply p.workflow with
    | error refusal =>
      rw [applied] at h
      exact ⟨h, rfl⟩
    | ok out =>
      obtain ⟨v, changed⟩ := out
      rw [applied] at h
      obtain ⟨unchanged, same⟩ := ih h
      obtain ⟨before, now⟩ := Bool.or_eq_false_iff.1 unchanged
      subst now
      exact ⟨before, same.trans (eq_of_apply applied)⟩

/-- A batch of moves moves nodes and does nothing else. -/
theorem unplaced_applyAll (moves : ∀ c ∈ cs, c.isRemoval = false) (p : Progress) :
    (applyAll p cs).workflow.unplaced = p.workflow.unplaced := by
  induction cs generalizing p with
  | nil => rfl
  | cons c cs ih =>
    obtain ⟨first, rest⟩ := List.forall_mem_cons.1 moves
    rw [applyAll]
    cases applied : c.apply p.workflow with
    | error refusal => rfl
    | ok out => exact (ih rest _).trans (unplaced_apply first applied)

end NodeChange

/-! ## Refused commands -/

namespace Editor

variable {e : Editor} {c : Command} {ids : IdSource} {refusal : Refusal} {before : List NodeChange}

/-- Moves that can be read lead the editor to where they lead the workflow. -/
theorem workflow_applyNodeChanges (moves : ∀ c ∈ before, c.isRemoval = false)
    (readable : ∀ c ∈ before, ¬ c.IsFaulty) :
    (e.applyNodeChanges before).1.workflow
      = (NodeChange.applyAll { workflow := e.workflow } before).workflow := by
  have live : before.any (·.isRemoval) = false := by simpa using moves
  unfold applyNodeChanges
  dsimp only
  rw [NodeChange.refusal_applyAll readable, live]
  cases changed : (NodeChange.applyAll { workflow := e.workflow } before).changed with
  | false => exact (NodeChange.workflow_applyAll_of_unchanged changed).2.symm
  | true => rfl

/-- Another workflow in the place of this one is seen. -/
theorem repaint_eq_self_iff {w : Workflow} : e.repaint w = e ↔ w = e.workflow := by
  constructor
  · exact fun same => congrArg workflow same
  · rintro rfl
    rfl

end Editor

/-- A batch of moves that cannot be read to its end, in which the moves before the fault, as a batch of
their own, change the workflow. -/
def Command.Strays (e : Editor) (c : Command) : Prop :=
  ∃ before fault after, c = .applyNodeChanges (before ++ fault :: after)
    ∧ (∀ change ∈ before ++ fault :: after, change.isRemoval = false)
    ∧ (∀ change ∈ before, ¬ change.IsFaulty) ∧ fault.IsFaulty
    ∧ (e.applyNodeChanges before).1.workflow ≠ e.workflow

namespace Editor

variable {e : Editor} {c : Command} {ids : IdSource} {refusal : Refusal}

/-- A refused batch with a removal leaves the editor as it was; one without leaves it with the workflow
that it came to. -/
theorem applyNodeChanges_of_refused {changes : List NodeChange}
    (h : (e.applyNodeChanges changes).2 = .error refusal) :
    (e.applyNodeChanges changes).1
      = if changes.any (·.isRemoval) then e
        else e.repaint (NodeChange.applyAll { workflow := e.workflow } changes).workflow := by
  unfold applyNodeChanges at h ⊢
  dsimp only at h ⊢
  split at h
  · rfl
  · cases h

/-- A batch of moves strays exactly if it is refused after its workflow has changed. -/
theorem strays_applyNodeChanges_iff {changes : List NodeChange}
    (moves : ∀ change ∈ changes, change.isRemoval = false)
    (h : (e.applyNodeChanges changes).2 = .error refusal) :
    (Command.applyNodeChanges changes).Strays e ↔
      (NodeChange.applyAll { workflow := e.workflow } changes).workflow ≠ e.workflow := by
  constructor
  · rintro ⟨before, fault, after, same, moves, readable, faulty, moved⟩
    cases same
    have early : ∀ change ∈ before, change.isRemoval = false :=
      fun change mem => moves change (List.mem_append_left _ mem)
    rw [NodeChange.workflow_applyAll_fault readable faulty, ← workflow_applyNodeChanges early readable]
    exact moved
  · intro moved
    rcases NodeChange.readable_or_fault changes with readable | fault
    · have accepted := NodeChange.refusal_applyAll readable { workflow := e.workflow }
      rw [applyNodeChanges, accepted] at h
      cases h
    · obtain ⟨before, fault, after, rfl, readable, faulty⟩ := fault
      have early : ∀ change ∈ before, change.isRemoval = false :=
        fun change mem => moves change (List.mem_append_left _ mem)
      rw [NodeChange.workflow_applyAll_fault readable faulty,
        ← workflow_applyNodeChanges early readable] at moved
      exact ⟨before, fault, after, rfl, moves, readable, faulty, moved⟩

theorem answer_applyNodeChanges {changes : List NodeChange}
    (h : ((e.perform (.applyNodeChanges changes)).run ids).1.answer = .error refusal) :
    (e.applyNodeChanges changes).2 = .error refusal := by
  change (e.applyNodeChanges changes).2.map (fun _ => Answer.done) = .error refusal at h
  cases result : (e.applyNodeChanges changes).2 with
  | ok _ =>
    rw [result] at h
    cases h
  | error other =>
    rw [result] at h
    cases h
    rfl

/-- A refused command leaves the editor as it was exactly if it is no batch of moves with a fault after
moves that change the workflow.  In any case it leaves everything but the workflow as it was, and of the
workflow everything but the places of nodes. -/
theorem perform_of_refused_iff (h : ((e.perform c).run ids).1.answer = .error refusal) :
    let f := ((e.perform c).run ids).1.editor
    (f = e ↔ ¬ c.Strays e) ∧ f = e.repaint f.workflow ∧ f.workflow.unplaced = e.workflow.unplaced := by
  intro f
  by_cases batch : ∃ changes, c = .applyNodeChanges changes
  · obtain ⟨changes, rfl⟩ := batch
    have refused := answer_applyNodeChanges h
    have left : f = _ := applyNodeChanges_of_refused refused
    by_cases removes : changes.any (·.isRemoval) = true
    · rw [if_pos removes] at left
      refine ⟨⟨fun _ => ?_, fun _ => left⟩, by rw [left]; rfl, by rw [left]⟩
      rintro ⟨before, fault, after, same, moves, -⟩
      cases same
      obtain ⟨change, mem, removal⟩ := List.any_eq_true.1 removes
      rw [moves change mem] at removal
      cases removal
    · rw [if_neg removes] at left
      have moves : ∀ change ∈ changes, change.isRemoval = false := by simpa using removes
      rw [left, repaint_eq_self_iff, strays_applyNodeChanges_iff moves refused, ne_eq, Classical.not_not]
      exact ⟨Iff.rfl, rfl, NodeChange.unplaced_applyAll moves _⟩
  · have same : f = e := perform_of_refused (fun changes is => batch ⟨changes, is⟩) h
    refine ⟨⟨fun _ => ?_, fun _ => same⟩, by rw [same]; rfl, by rw [same]⟩
    rintro ⟨before, fault, after, is, -⟩
    exact batch ⟨_, is⟩

/-- The condition is moved, and then the exit to a place without a number. -/
def halfMoved : List NodeChange :=
  [.moved "c" (.object [("x", .int 5), ("y", .int 7)]), .moved "x" (.object [("x", .null)])]

/-- With a removal in it the batch is refused without a trace. -/
theorem perform_of_refused_iff_removed :
    let out := (((ofWorkflow .forked).perform (.applyNodeChanges (.removed "t" :: halfMoved))).run
      .strokes).1
    out.answer = .error (.faulty [["x"]]) ∧ out.editor = ofWorkflow .forked := by
  intro out
  have refused : out.answer = .error (.faulty [["x"]]) := by rfl
  refine ⟨refused, (perform_of_refused_iff refused).1.2 ?_⟩
  rintro ⟨before, fault, after, same, moves, -⟩
  injection same with same
  have removal := moves (.removed "t") (same ▸ List.mem_cons_self)
  cases removal

/-- Without one the condition has moved when the batch is refused, and nothing says so. -/
theorem perform_halfMoved :
    let e := ofWorkflow .forked
    let out := ((e.perform (.applyNodeChanges halfMoved)).run .strokes).1
    out.answer = .error (.faulty [["x"]]) ∧ out.editor ≠ e
      ∧ out.editor.dirty = false ∧ out.editor.revision = 0 ∧ out.editor.depth = 0 := by
  intro e out
  refine ⟨rfl, fun same => ?_, rfl, rfl, rfl⟩
  have columns : (out.editor.workflow.nodes.map fun n => n.position.x == 5.0)
      ≠ e.workflow.nodes.map fun n => n.position.x == 5.0 := by decide +kernel
  exact columns (by rw [same])

end Editor

end Journey
