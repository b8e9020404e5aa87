import Journey.Proofs.Editor.Accepted

/-!
# Journey.Proofs.Editor.Nodes -- adding, changing and removing blocks keeps an editor settled

A block that is added has an identifier that was looked for or drawn, and is no second trigger
(`Settled.addNode`, `yields_addNew`).  A patch leaves the identifier and the settings of a block alone
(`face_patched`).  What the canvas reports only ever takes blocks out or moves them
(`NodeChange.keeps_applyAll`), and a batch that takes some out gives up the edges that lose an end.
-/

namespace Journey

set_option autoImplicit false

variable {ids : IdSource} {w : Workflow} {e f : Editor} {n m : Node} {id : String}

/-! ## New blocks -/

namespace NodeRequest

variable {r : NodeRequest}

theorem canonical_of_settings {config : Config} (h : r.settings = .valid config) :
    config.Canonical := by
  unfold settings at h
  split at h
  · cases h
    exact r.kind.canonical_standardConfig
  · split at h
    · cases h
      exact ConditionConfig.canonical_of_document _
    · next other =>
      refine Config.canonical_of_kind ?_
      rw [Config.kind_of_decode h]
      exact other

theorem canonical_of_check (h : r.check = .valid n) : n.config.Canonical := by
  unfold check at h
  split at h
  · cases h
  · next config settings =>
    split at h
    · cases h
    · obtain ⟨g, title, inner, -, rfl⟩ := Checked.seq_eq_valid_iff.1 h
      obtain ⟨id, -, rfl⟩ := Checked.map_eq_valid_iff.1 inner
      exact canonical_of_settings settings

theorem id_of_check (unnamed : r.id = .null) (h : r.check = .valid n) : n.id = "" := by
  unfold check at h
  split at h
  · cases h
  · split at h
    · cases h
    · obtain ⟨g, title, inner, -, rfl⟩ := Checked.seq_eq_valid_iff.1 h
      obtain ⟨id, named, rfl⟩ := Checked.map_eq_valid_iff.1 inner
      have given := Checked.under_eq_valid_iff.1 named
      rw [unnamed] at given
      cases given
      rfl

/-- A node without an identifier gets a new one. -/
theorem run_identify (void : n.id = "") :
    n.identify.run ids = ({ n with id := n.kind.name ++ "_" ++ ids.suffix ids.used }, ids.next) := by
  show ({ n with id := ((Fresh.orElse n.id (Fresh.nodeId n.kind.name)).run ids).1 },
    ((Fresh.orElse n.id (Fresh.nodeId n.kind.name)).run ids).2) = _
  rw [void]
  rfl

/-- What is drawn for a request has a new identifier and canonical settings. -/
structure Drawn (ids : IdSource) (n : Node) (after : IdSource) : Prop where
  draws : ids.Draws after [n.id]
  named : n.id ≠ ""
  canonical : n.config.Canonical

theorem yields_draw (unnamed : r.id = .null) : r.draw.Yields ids fun after n => Drawn ids n after := by
  refine .after ?_ _
  unfold create
  cases checked : r.check with
  | faulty places => exact Edit.yields_throw _
  | valid n =>
    have run := @run_identify ids n (id_of_check unnamed checked)
    refine Edit.yields_liftM ?_ ?_
    · rw [run]
      exact ids.later_next
    · rw [run]
      refine ⟨ids.draws_next (n.kind.name ++ "_"), joined_ne_empty _ _, ?_⟩
      show n.config.Canonical
      exact canonical_of_check checked

end NodeRequest

/-! ## Patches -/

namespace Node

variable {patch : Fields}

/-- A member that is checked and put in its place changes no face. -/
theorem face_of_map {α : Type} {x : Except Refusal α} {put : α → Node}
    (h : x.map put = .ok m) (same : ∀ a, (put a).face = n.face) : m.face = n.face := by
  cases x with
  | error refusal => cases h
  | ok a =>
    cases h
    exact same a

theorem face_retitle (h : n.retitle patch = .ok m) : m.face = n.face := by
  unfold retitle at h
  split at h
  · exact face_of_map h fun _ => rfl
  · cases h
    rfl

theorem face_reposition (h : n.reposition patch = .ok m) : m.face = n.face := by
  unfold reposition at h
  split at h
  · exact face_of_map h fun _ => rfl
  · cases h
    rfl

theorem face_restatus (h : n.restatus patch = .ok m) : m.face = n.face := by
  unfold restatus at h
  split at h
  · split at h
    · cases h
      rfl
    · cases h
  · cases h
    rfl

theorem face_recount (h : n.recount patch = .ok m) : m.face = n.face := by
  unfold recount at h
  split at h
  · exact face_of_map h fun _ => rfl
  · cases h
    rfl

/-- A patch changes neither the identifier nor the settings. -/
theorem face_patched (h : n.patched patch = .ok m) : m.face = n.face := by
  obtain ⟨titled, retitled, h⟩ := bind_eq_ok_iff.1 h
  obtain ⟨placed, repositioned, h⟩ := bind_eq_ok_iff.1 h
  obtain ⟨shown, restatused, h⟩ := bind_eq_ok_iff.1 h
  calc
    m.face = shown.face := face_recount h
    _ = placed.face := face_restatus restatused
    _ = titled.face := face_reposition repositioned
    _ = n.face := face_retitle retitled

end Node

/-! ## What the canvas reports -/

theorem Workflow.Settled.updateNode (h : w.Settled ids) {g : Node → Node}
    (same : ∀ n, w.node? id = some n → (g n).face = n.face) : (w.updateNode id g).Settled ids :=
  h.congr (Workflow.map_replaceFirst Node.face same) rfl rfl

namespace NodeChange

/-- No edge has changed and no node is new; some may be gone if something was removed. -/
structure Keeps (removal : Bool) (w v : Workflow) : Prop where
  edges : v.edges = w.edges
  fewer : (v.nodes.map Node.face).Sublist (w.nodes.map Node.face)
  same : removal = false → v.nodes.map Node.face = w.nodes.map Node.face

variable {removal again : Bool} {v u : Workflow}

theorem Keeps.refl (removal : Bool) (w : Workflow) : Keeps removal w w :=
  ⟨rfl, .refl _, fun _ => rfl⟩

theorem Keeps.trans (h : Keeps removal w v) (k : Keeps again v u) : Keeps (removal || again) w u where
  edges := k.edges.trans h.edges
  fewer := k.fewer.trans h.fewer
  same := by
    intro neither
    rw [Bool.or_eq_false_iff] at neither
    exact (k.same neither.2).trans (h.same neither.1)

theorem keeps_apply {c : NodeChange} {changed : Bool} (h : c.apply w = .ok (v, changed)) :
    Keeps c.isRemoval w v := by
  cases c with
  | shown =>
    cases h
    exact .refl _ _
  | removed id =>
    cases h
    exact ⟨rfl, List.filter_sublist.map _, fun stays => by cases stays⟩
  | moved id d =>
    simp only [apply] at h
    cases place : (Position.read d).orRefuse with
    | error refusal =>
      rw [place] at h
      cases h
    | ok position =>
      rw [place] at h
      have moved := Except.ok.inj h
      dsimp only at moved
      split at moved
      · split at moved
        · cases moved
          exact .refl _ _
        · cases moved
          have faces : (w.updateNode id fun n => { n with position }).nodes.map Node.face
              = w.nodes.map Node.face := Workflow.map_replaceFirst Node.face fun _ _ => rfl
          exact ⟨rfl, faces ▸ .refl _, fun _ => faces⟩
      · cases moved
        exact .refl _ _

/-- However far a batch comes. -/
theorem keeps_applyAll (p : Progress) (cs : List NodeChange) :
    Keeps (cs.any (·.isRemoval)) p.workflow (applyAll p cs).workflow := by
  induction cs generalizing p with
  | nil => exact .refl _ _
  | cons c cs ih =>
    rw [applyAll, List.any_cons]
    split
    · next w changed applied =>
      have later := ih { p with workflow := w, changed := p.changed || changed }
      exact (keeps_apply applied).trans later
    · exact .refl _ _

theorem Keeps.settled (h : Keeps removal w v) (stays : removal = false) (settled : w.Settled ids) :
    v.Settled ids := by
  refine settled.congr (h.same stays) ?_ ?_
  · rw [Workflow.edgeIds, Workflow.edgeIds, h.edges]
  · rw [h.edges]

theorem Keeps.withoutLooseEdges (h : Keeps removal w v) (settled : w.Settled ids) :
    v.withoutLooseEdges.Settled ids := by
  refine settled.without (settled.wellFormed.withoutLooseEdges h.fewer h.edges) (fun id mem => ?_)
    fun id mem => ?_
  · have old : id ∈ (v.nodes.map Node.face).map (·.1) := by
      rw [← Workflow.map_id_eq_faces]
      exact mem
    rw [Workflow.nodeIds, Workflow.map_id_eq_faces]
    exact (h.fewer.map _).subset old
  · have kept : v.withoutLooseEdges.edges.Sublist w.edges := h.edges ▸ List.filter_sublist
    exact (kept.map _).subset mem

end NodeChange

/-! ## Edits -/

namespace Editor

theorem Settled.addNode (h : e.Settled ids) (added : e.addNode n = .ok (f, m)) (named : n.id ≠ "")
    (canonical : n.config.Canonical) (spared : ids.Spares n.id) : f.Settled ids := by
  obtain ⟨single, new, rfl, rfl⟩ := addNode_eq_ok_iff.1 added
  exact h.record (h.workflow.addNode new named single canonical spared) _

theorem yields_addNew (h : e.Settled ids) (distinct : ids.Distinct) {r : NodeRequest}
    (unnamed : r.id = .null) : (e.addNew r).Yields ids fun after out => out.1.Settled after := by
  refine .bind (NodeRequest.yields_draw unnamed) fun n after later drawn => Edit.yields_of ?_
  rintro ⟨f, m⟩ added
  exact (h.later later).addNode added drawn.named drawn.canonical
    (drawn.draws.spares distinct _ (by simp))

theorem Settled.patchNode (h : e.Settled ids) {patch : Fields}
    (patched : e.patchNode id patch = .ok (f, m)) : f.Settled ids := by
  obtain ⟨-, ⟨n, found, changed⟩, rfl⟩ := patchNode_eq_ok_iff.1 patched
  refine h.record (h.workflow.updateNode fun n' found' => ?_) _
  rw [found', Option.some.injEq] at found
  subst found
  exact Node.face_patched changed

theorem Settled.moveNode (h : e.Settled ids) {d : Document} (moved : e.moveNode id d = .ok f) :
    f.Settled ids := by
  obtain ⟨n, position, -, -, rfl⟩ := moveNode_eq_ok_iff.1 moved
  split
  · exact h
  · exact h.touch (h.workflow.updateNode fun _ _ => rfl)

theorem Settled.removeNode (h : e.Settled ids) (removed : e.removeNode id = .ok f) : f.Settled ids := by
  obtain ⟨-, rfl⟩ := removeNode_eq_ok_iff.1 removed
  exact h.record (h.workflow.withoutNodes [id]) _

theorem Settled.removeSelection (h : e.Settled ids) : e.removeSelection.Settled ids :=
  holds_removeSelection h (h.record ((h.workflow.withoutNodes _).withoutEdges _) _)

theorem Settled.applyNodeChanges (h : e.Settled ids) (cs : List NodeChange) :
    (e.applyNodeChanges cs).1.Settled ids := by
  have keeps := NodeChange.keeps_applyAll { workflow := e.workflow } cs
  refine holds_applyNodeChanges h (fun _ => ?_) (fun moves => ?_) fun moves _ => ?_
  · exact h.record (keeps.withoutLooseEdges h.workflow) _
  · exact h.touch (keeps.settled moves h.workflow)
  · exact h.repaint (keeps.settled moves h.workflow)

end Editor

end Journey
