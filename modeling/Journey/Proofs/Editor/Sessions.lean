import Journey.Proofs.Editor.Clipboard
import Journey.Proofs.Editor.Config
import Journey.Proofs.Editor.Edges

/-!
# Journey.Proofs.Editor.Sessions -- workflows stay well formed through whole sessions

One command keeps an editor settled (`Settled.perform`), hence so does a session, whatever is undone,
redone, copied or pasted on the way (`Settled.performAll`).  Two things come from outside.  The caller
supplies identifiers that are not drawn later and, where a whole workflow is put in the place of the
present one, a well-formed one (`Editor.Supplied`).  And a block that is handed over as it is keeps the
handles that its clauses have, since nothing makes them canonical on this way.  That is the one way in
which a workflow stops being well formed: it stays so exactly if every block that was accepted as it is
has canonical handles (`wellFormed_performAll_iff`).

What comes of a block without them is seen in `stray`: two branches of it end up on one handle.
-/

namespace Journey

set_option autoImplicit false

variable {ids : IdSource} {e f : Editor}

/-! ## What a session is supplied with -/

/-- What a command brings along is well formed if it is a workflow, has an identifier if it is a block, as
every block has that was read, and has none that is drawn later. -/
def Command.Supplied (ids : IdSource) : Command → Prop
  | .load w _ _ => w.Settled ids
  | .replace w _ => w.Settled ids
  | .addNode n => n.id ≠ "" ∧ ids.Spares n.id
  | .addEdge edge => ids.Spares edge.id
  | _ => True

/-- Every command of a session is supplied when its turn comes. -/
def Editor.Supplied (e : Editor) : List Command → IdSource → Prop
  | [], _ => True
  | c :: cs, ids =>
      c.Supplied ids
        ∧ ((e.perform c).run ids).1.editor.Supplied cs ((e.perform c).run ids).2

/-! ## One command -/

namespace Outcome

variable {α : Type} {answer : α → Answer}

theorem settled_ofChange (h : e.Settled ids) {x : Except Refusal (Editor × α)}
    (kept : ∀ f a, x = .ok (f, a) → f.Settled ids) : (ofChange e answer x).editor.Settled ids := by
  cases x with
  | error refusal => exact h
  | ok out => exact kept out.1 out.2 rfl

theorem settled_ofDone (h : e.Settled ids) {x : Except Refusal Editor}
    (kept : ∀ f, x = .ok f → f.Settled ids) : (ofDone e x).editor.Settled ids := by
  cases x with
  | error refusal => exact h
  | ok f => exact kept f rfl

theorem settled_ofStep (h : e.Settled ids) {x : Option Editor}
    (kept : ∀ f, x = some f → f.Settled ids) : (ofStep e x).editor.Settled ids := by
  cases x with
  | none => exact h
  | some f => exact kept f rfl

theorem settled_ofEdit (h : e.Settled ids) {x : Edit (Editor × α)}
    (yields : x.Yields ids fun after out => out.1.Settled after) :
    ids.Later (x.run.run ids).2
      ∧ (ofChange e answer (x.run.run ids).1).editor.Settled (x.run.run ids).2 := by
  refine ⟨yields.later, settled_ofChange (h.later yields.later) fun f a done => ?_⟩
  exact yields.holds (f, a) done

end Outcome

namespace Editor

theorem Settled.highlight (h : e.Settled ids) (edges : List String) : (e.highlight edges).Settled ids := by
  refine h.repaint (h.workflow.congr rfl (Workflow.edgeIds_highlight _ _) ?_)
  rw [Workflow.highlight, List.map_map]
  rfl

theorem yields_addNewOf (h : e.Settled ids) (distinct : ids.Distinct) (kind : Document)
    (position : Fields) (title : Document) (config : Option Document) :
    (e.addNewOf kind position title config).Yields ids fun after out => out.1.Settled after := by
  refine .bind (Edit.yields_of (p := fun t _ => t = ids) fun _ _ => rfl) fun kind t _ same => ?_
  subst same
  exact yields_addNew h distinct rfl

/-- A command keeps an editor settled, unless it adds a block whose handles are not canonical. -/
theorem Settled.perform (h : e.Settled ids) (distinct : ids.Distinct) {c : Command}
    (supplied : c.Supplied ids)
    (canonical : ∀ n, c = .addNode n → ((e.perform c).run ids).1.answer.isOk = true →
      n.config.Canonical) :
    ids.Later ((e.perform c).run ids).2
      ∧ ((e.perform c).run ids).1.editor.Settled ((e.perform c).run ids).2 := by
  cases c with
  | load w keepHistory markDirty => exact ⟨.refl ids, h.load supplied keepHistory markDirty⟩
  | replace w selection => exact ⟨.refl ids, h.record supplied _⟩
  | describe name status version =>
    refine ⟨.refl ids, Outcome.settled_ofDone h fun f described => ?_⟩
    obtain ⟨status, -, rfl⟩ := describe_eq_ok_iff.1 described
    refine h.record ?_ _
    exact h.workflow.congr rfl rfl rfl
  | select selection => exact ⟨.refl ids, h.select selection⟩
  | addNew kind position title config =>
    exact Outcome.settled_ofEdit h (yields_addNewOf h distinct kind position title config)
  | addNode n =>
    refine ⟨.refl ids, Outcome.settled_ofChange h fun f m added => ?_⟩
    have accepted : ((e.perform (.addNode n)).run ids).1.answer.isOk = true := by
      show (Outcome.ofChange e .node (e.addNode n)).answer.isOk = true
      rw [added]
      rfl
    exact h.addNode added supplied.1 (canonical n rfl accepted) supplied.2
  | patchNode id patch => exact ⟨.refl ids, Outcome.settled_ofChange h fun _ _ done => h.patchNode done⟩
  | patchConfig id patch =>
    exact ⟨.refl ids, Outcome.settled_ofChange h fun _ _ done => h.patchConfig done⟩
  | moveNode id position => exact ⟨.refl ids, Outcome.settled_ofDone h fun _ done => h.moveNode done⟩
  | removeNode id => exact ⟨.refl ids, Outcome.settled_ofDone h fun _ done => h.removeNode done⟩
  | connect c => exact Outcome.settled_ofEdit h (yields_connect h distinct c)
  | addEdge edge =>
    exact ⟨.refl ids, Outcome.settled_ofChange h fun _ _ done => h.addEdge done supplied⟩
  | reconnect id c => exact Outcome.settled_ofEdit h (yields_reconnect h distinct id c)
  | removeEdge id => exact ⟨.refl ids, Outcome.settled_ofDone h fun _ done => h.removeEdge done⟩
  | removeSelection => exact ⟨.refl ids, h.removeSelection⟩
  | applyNodeChanges changes => exact ⟨.refl ids, h.applyNodeChanges changes⟩
  | applyEdgeChanges removed => exact ⟨.refl ids, h.applyEdgeChanges removed⟩
  | copy => exact ⟨.refl ids, h.copy⟩
  | paste => exact h.paste distinct
  | undo => exact ⟨.refl ids, Outcome.settled_ofStep h fun _ undone => h.undo undone⟩
  | redo => exact ⟨.refl ids, Outcome.settled_ofStep h fun _ redone => h.redo redone⟩
  | autoLayout => exact ⟨.refl ids, Outcome.settled_ofDone h fun _ laid => h.autoLayout laid⟩
  | insertAfter source handle kind title config =>
    exact Outcome.settled_ofEdit h (yields_insertAfter h distinct source handle kind title config)
  | dryRun context rolls =>
    refine ⟨.refl ids, Outcome.settled_ofChange h fun f s ran => ?_⟩
    obtain ⟨-, -, -, rfl⟩ := dryRun_eq_ok_iff.1 ran
    refine Settled.highlight ?_ _
    exact ⟨h.canvases, h.clipboard⟩
  | clearDryRun =>
    refine ⟨.refl ids, Settled.highlight ?_ []⟩
    exact ⟨h.canvases, h.clipboard⟩
  | highlight edges => exact ⟨.refl ids, h.highlight edges⟩
  | clearHighlight => exact ⟨.refl ids, h.highlight []⟩
  | snapshot => exact ⟨.refl ids, h⟩
  | save store now =>
    refine ⟨.refl ids, Outcome.settled_ofChange h fun f a saved => ?_⟩
    obtain ⟨-, -, rfl⟩ := save_eq_ok_iff.1 saved
    exact ⟨h.canvases, h.clipboard⟩
  | markSaved => exact ⟨.refl ids, ⟨h.canvases, h.clipboard⟩⟩

/-- A block that was accepted as it is has the settings it came with. -/
theorem canonical_of_accepted {n : Node}
    (accepted : ((e.perform (.addNode n)).run ids).1.answer.isOk = true)
    (h : ((e.perform (.addNode n)).run ids).1.editor.workflow.WellFormed) : n.config.Canonical := by
  change (Outcome.ofChange e .node (e.addNode n)).answer.isOk = true at accepted
  change (Outcome.ofChange e .node (e.addNode n)).editor.workflow.WellFormed at h
  cases added : e.addNode n with
  | error refusal =>
    rw [added] at accepted
    cases accepted
  | ok out =>
    obtain ⟨f, m⟩ := out
    rw [added] at h
    obtain ⟨-, -, rfl, rfl⟩ := addNode_eq_ok_iff.1 added
    exact h.canonical n (List.mem_append_right _ List.mem_cons_self)

/-! ## Sessions -/

/-- Every block that was accepted as it is has canonical handles. -/
def AcceptsCanonical (e : Editor) (cs : List Command) (ids : IdSource) : Prop :=
  ∀ n o, (Command.addNode n, o) ∈ cs.zip ((e.performAll cs).run ids).1 → o.answer.isOk = true →
    n.config.Canonical

theorem run_performAll_cons (e : Editor) (c : Command) (cs : List Command) (ids : IdSource) :
    ((e.performAll (c :: cs)).run ids).1
      = ((e.perform c).run ids).1
        :: ((((e.perform c).run ids).1.editor.performAll cs).run ((e.perform c).run ids).2).1 := rfl

/-- Every editor of a session is settled, with the source as it is by then. -/
theorem Settled.performAll (h : e.Settled ids) (distinct : ids.Distinct) {cs : List Command}
    (supplied : e.Supplied cs ids) (canonical : e.AcceptsCanonical cs ids) :
    ∀ o ∈ ((e.performAll cs).run ids).1, ∃ t, ids.Later t ∧ o.editor.Settled t := by
  induction cs generalizing e ids with
  | nil =>
    intro o mem
    cases mem
  | cons c cs ih =>
    obtain ⟨now, afterwards⟩ := supplied
    have accepted (n : Node) (same : c = .addNode n)
        (ok : ((e.perform c).run ids).1.answer.isOk = true) : n.config.Canonical :=
      canonical n _ (same ▸ List.mem_cons_self) ok
    obtain ⟨later, settled⟩ := h.perform distinct now accepted
    have rest : ((e.perform c).run ids).1.editor.AcceptsCanonical cs ((e.perform c).run ids).2 :=
      fun n o mem => canonical n o (List.mem_cons_of_mem _ mem)
    intro o mem
    rw [run_performAll_cons] at mem
    rcases List.mem_cons.1 mem with rfl | further
    · exact ⟨_, later, settled⟩
    · obtain ⟨t, onward, kept⟩ := ih settled (later.distinct distinct) afterwards rest o further
      exact ⟨t, later.trans onward, kept⟩

theorem acceptsCanonical_of_wellFormed {cs : List Command}
    (h : ∀ o ∈ ((e.performAll cs).run ids).1, o.editor.workflow.WellFormed) : e.AcceptsCanonical cs ids := by
  induction cs generalizing e ids with
  | nil =>
    intro n o mem
    cases mem
  | cons c cs ih =>
    rw [run_performAll_cons] at h
    obtain ⟨first, rest⟩ := List.forall_mem_cons.1 h
    intro n o mem ok
    rcases List.mem_cons.1 mem with same | further
    · obtain ⟨rfl, rfl⟩ := Prod.mk.inj same
      exact canonical_of_accepted ok first
    · exact ih rest n o further ok

/-- In a session that starts on a well-formed workflow, every workflow is well formed exactly if every
block that was accepted as it is has canonical handles. -/
theorem wellFormed_performAll_iff {w : Workflow} (settled : w.Settled ids) (distinct : ids.Distinct)
    (limits : Limits) (cs : List Command) (supplied : (ofWorkflow w limits).Supplied cs ids) :
    (∀ o ∈ (((ofWorkflow w limits).performAll cs).run ids).1, o.editor.workflow.WellFormed) ↔
      (ofWorkflow w limits).AcceptsCanonical cs ids := by
  constructor
  · exact acceptsCanonical_of_wellFormed
  · intro canonical o mem
    obtain ⟨t, -, kept⟩ := (settled_ofWorkflow settled).performAll distinct supplied canonical o mem
    exact kept.workflow.wellFormed

/-- A block is handed over as it is, joined to the exit on its two branches, and patched with nothing. -/
def handOver (n : Node) : List Command :=
  [.addNode n, .connect ⟨some n.id, some "x", some "if", none⟩,
    .connect ⟨some n.id, some "x", some "else_if_1", none⟩, .patchConfig n.id []]

/-- A block that asks on its two branches for the handles it gets. -/
def straight : Node :=
  { id := "s", config := .condition { clauses := [{ id := "if" }, { id := "else_if_1" }] } }

/-- A block whose second branch has the handle of the first. -/
def stray : Node :=
  { id := "s", config := .condition { clauses := [{ id := "first" }, { id := "if" }] } }

theorem settled_forked : Workflow.forked.Settled .strokes := by
  have canonical : ∀ n ∈ Workflow.forked.nodes, n.config.Canonical := by
    have standard := NodeKind.condition.canonical_standardConfig
    simp only [Workflow.forked, List.forall_mem_cons]
    exact ⟨trivial, standard, trivial, by simp⟩
  have plain : ∀ id ∈ Workflow.forked.nodeIds ++ Workflow.forked.edgeIds, '#' ∉ id.toList := by
    decide +kernel
  have wellFormed := Workflow.wellFormed_of_valid (w := .forked) (by decide +kernel) (by decide)
    (by decide) canonical
  refine ⟨wellFormed, fun id mem => ?_, fun id mem => ?_⟩
  · exact IdSource.spares_strokes (plain id (List.mem_append_left _ mem))
  · exact IdSource.spares_strokes (plain id (List.mem_append_right _ mem))

theorem supplied_handOver {n : Node} (same : n.id = "s") :
    (ofWorkflow .forked).Supplied (handOver n) .strokes := by
  have new : n.id ≠ "" ∧ IdSource.strokes.Spares n.id := by
    rw [same]
    exact ⟨by decide, IdSource.spares_strokes (by decide +kernel)⟩
  exact ⟨new, trivial, trivial, trivial, trivial⟩

/-- A block with canonical handles is handed over without harm. -/
theorem wellFormed_performAll_straight :
    Workflow.forked.Settled .strokes ∧ IdSource.strokes.Distinct
      ∧ (ofWorkflow .forked).Supplied (handOver straight) .strokes
      ∧ ∀ o ∈ (((ofWorkflow .forked).performAll (handOver straight)).run .strokes).1,
          o.editor.workflow.WellFormed := by
  have supplied := @supplied_handOver straight rfl
  refine ⟨settled_forked, IdSource.distinct_strokes, supplied, ?_⟩
  refine (wellFormed_performAll_iff settled_forked IdSource.distinct_strokes {} _ supplied).2 ?_
  intro n o mem ok
  have handed := (List.of_mem_zip mem).1
  simp only [handOver, List.mem_cons, Command.addNode.injEq, reduceCtorEq, or_false, List.not_mem_nil]
    at handed
  subst handed
  have regular : ConditionConfig.Regular { clauses := [{ id := "if" }, { id := "else_if_1" }] } :=
    ⟨rfl, by simp [Clause.Regular]⟩
  exact ⟨regular, ["else_if_1"], rfl, by decide +kernel⟩

/-- The edges on the two branches of a stray block end up on one of them. -/
theorem not_wellFormed_performAll_stray :
    Workflow.forked.Settled .strokes ∧ IdSource.strokes.Distinct
      ∧ (ofWorkflow .forked).Supplied (handOver stray) .strokes
      ∧ (((ofWorkflow .forked).performAll (handOver stray)).run .strokes).1.map
          (fun o => (Workflow.edgesFrom o.editor.workflow.edges "s").map Edge.door)
        = [[], ["if"], ["if", "else_if_1"], ["else_if_1", "else_if_1"]]
      ∧ ¬ ∀ o ∈ (((ofWorkflow .forked).performAll (handOver stray)).run .strokes).1,
          o.editor.workflow.WellFormed := by
  refine ⟨settled_forked, IdSource.distinct_strokes, supplied_handOver rfl, by decide +kernel, ?_⟩
  intro wellFormed
  have connections := fun o mem => (wellFormed o mem).nodup_connections
  revert connections
  decide +kernel

end Editor

end Journey
