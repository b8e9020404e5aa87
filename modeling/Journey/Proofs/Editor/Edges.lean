import Journey.Proofs.Editor.Nodes

/-!
# Journey.Proofs.Editor.Edges -- connecting and inserting blocks keeps an editor settled

The rules for connections are those for sound edges, so an edge that is granted can be added
(`Connection.yields_draw`).  Moving an edge and inserting a block are made of such steps: edges are taken
out, which leaves the others sound, and new ones are added one by one (`yields_splice`).  A layout moves
blocks and changes nothing else (`map_face_layout`).
-/

namespace Journey

set_option autoImplicit false

variable {ids : IdSource} {w : Workflow} {e f : Editor}

/-! ## Granted edges -/

/-- An edge without an identifier gets a new one. -/
theorem Edge.run_identify {edge : Edge} (void : edge.id = "") :
    edge.identify.run ids
      = ({ edge with
            id := "edge_" ++ edge.source ++ "_" ++ edge.target ++ "_" ++ ids.suffix ids.used },
          ids.next) := by
  show ({ edge with id := ((Fresh.orElse edge.id (Fresh.edgeId edge.source edge.target)).run ids).1 },
    ((Fresh.orElse edge.id (Fresh.edgeId edge.source edge.target)).run ids).2) = _
  rw [void]
  rfl

namespace Connection

variable {c : Connection} {nodes : List Node} {edges : List Edge} {edge granted : Edge}

theorem id_of_check (h : c.check nodes edges = .ok granted) : granted.id = "" := by
  unfold check at h
  split at h
  · split at h
    · split at h
      · cases h
      · cases h
        rfl
    · cases h
  · cases h

/-- An edge that is drawn for a connection has a new identifier and stays sound with the others. -/
structure Drawn (ids : IdSource) (nodes : List Node) (edges : List Edge) (edge : Edge)
    (after : IdSource) : Prop where
  draws : ids.Draws after [edge.id]
  sound : Workflow.Sound (Workflow.settings? nodes) (edges ++ [edge])

theorem drawn_of_check (sound : Workflow.Sound (Workflow.settings? nodes) edges)
    (h : c.check nodes edges = .ok granted) :
    Drawn ids nodes edges (granted.identify.run ids).1 (granted.identify.run ids).2 := by
  rw [Edge.run_identify (id_of_check h)]
  exact ⟨ids.draws_next _, sound_of_check sound h rfl rfl rfl⟩

theorem yields_draw (sound : Workflow.Sound (Workflow.settings? nodes) edges) :
    (c.draw nodes edges).Yields ids fun after edge => Drawn ids nodes edges edge after := by
  refine .after ?_ _
  unfold connect
  cases checked : c.check nodes edges with
  | error reason => exact Edit.yields_throw _
  | ok granted =>
    have drawn := @drawn_of_check ids c nodes edges granted sound checked
    exact Edit.yields_liftM drawn.draws.later drawn

end Connection

namespace Workflow

theorem Settled.addDrawn (h : w.Settled ids) (distinct : ids.Distinct) {edge : Edge}
    {after : IdSource} (drawn : Connection.Drawn ids w.nodes w.edges edge after) :
    (w.addEdge edge).Settled after := by
  have new : edge.id ∉ w.edgeIds := fun there =>
    drawn.draws.not_mem (h.edges _ there) List.mem_cons_self
  exact (h.later drawn.draws.later).addEdge new drawn.sound
    (drawn.draws.spares distinct _ List.mem_cons_self)

theorem map_face_inThrees (dx dy : Float) (position : Nat) (ns : List Node) :
    (Layout.inThrees dx dy position ns).map Node.face = ns.map Node.face := by
  induction ns generalizing position with
  | nil => rfl
  | cons n ns ih =>
    rw [Layout.inThrees, List.map_cons, List.map_cons, ih]
    rfl

theorem map_face_onSpots (dx dy : Float) (spots : List Layout.Spot) (aside : Nat) (ns : List Node) :
    (Layout.onSpots dx dy spots aside ns).map Node.face = ns.map Node.face := by
  induction ns generalizing aside with
  | nil => rfl
  | cons n ns ih =>
    rw [Layout.onSpots]
    split
    · rw [List.map_cons, List.map_cons, ih]
      rfl
    · rw [List.map_cons, List.map_cons, ih]
      rfl

/-- A layout changes only places. -/
theorem map_face_layout (w : Workflow) (dx dy : Float) :
    (w.layout dx dy).map Node.face = w.nodes.map Node.face := by
  simp only [layout]
  split
  · exact map_face_inThrees ..
  · exact map_face_onSpots ..

end Workflow

namespace Editor

/-! ## Connecting -/

theorem yields_connect (h : e.Settled ids) (distinct : ids.Distinct) (c : Connection) :
    (e.connect c).Yields ids fun after out => out.1.Settled after := by
  refine .bind (Connection.yields_draw h.workflow.wellFormed.sound) fun edge after later drawn => ?_
  exact Edit.yields_pure ((h.later later).record (h.workflow.addDrawn distinct drawn) _)

theorem Settled.addEdge (h : e.Settled ids) {edge last : Edge}
    (added : e.addEdge edge = .ok (f, last)) (spared : ids.Spares edge.id) : f.Settled ids := by
  obtain ⟨new, -, ⟨granted, checked, rfl⟩, rfl⟩ := addEdge_eq_ok_iff.1 added
  obtain ⟨⟨source, target⟩, handle, -⟩ := Connection.edge_of_check checked
  have fresh : (labelled edge granted.label).id ∉ e.workflow.edgeIds := new
  refine h.record (h.workflow.addEdge fresh ?_ spared) _
  refine Connection.sound_of_check h.workflow.wellFormed.sound checked ?_ ?_ ?_
  · exact Option.some.inj source
  · exact Option.some.inj target
  · rw [Edge.door, Edge.door, handle, Connection.door_given]
    rfl

theorem yields_reconnect (h : e.Settled ids) (distinct : ids.Distinct) (id : String) (c : Connection) :
    (e.reconnect id c).Yields ids fun after out => out.1.Settled after := by
  have without := h.workflow.withoutEdges [id]
  refine .bind (Edit.yields_of (p := fun t _ => t = ids) fun _ _ => rfl) fun old t _ same => ?_
  subst same
  refine .bind (Connection.yields_draw without.wellFormed.sound) fun edge after later drawn => ?_
  exact Edit.yields_pure ((h.later later).record (without.addDrawn distinct drawn) _)

theorem Settled.removeEdge (h : e.Settled ids) {id : String} (removed : e.removeEdge id = .ok f) :
    f.Settled ids := by
  obtain ⟨-, rfl⟩ := removeEdge_eq_ok_iff.1 removed
  exact h.record (h.workflow.withoutEdges [id]) _

theorem Settled.applyEdgeChanges (h : e.Settled ids) (removed : List String) :
    (e.applyEdgeChanges removed).Settled ids :=
  holds_applyEdgeChanges h (h.record (h.workflow.withoutEdges removed) _)

/-! ## Laying out and inserting -/

theorem settled_laidOut (h : w.Settled ids) (e : Editor) : (e.laidOut w).Settled ids :=
  h.congr (Workflow.map_face_layout w _ _) rfl rfl

theorem Settled.autoLayout (h : e.Settled ids) (laid : e.autoLayout = .ok f) : f.Settled ids := by
  obtain ⟨-, rfl⟩ := autoLayout_eq_ok_iff.1 laid
  exact h.record (settled_laidOut h.workflow e) _

theorem settled_connectIfAllowed (h : w.Settled ids) (distinct : ids.Distinct) (c : Connection) :
    ids.Later ((connectIfAllowed c w).run ids).2
      ∧ ((connectIfAllowed c w).run ids).1.Settled ((connectIfAllowed c w).run ids).2 := by
  unfold connectIfAllowed Connection.connect
  cases checked : c.check w.nodes w.edges with
  | error reason => exact ⟨.refl ids, h⟩
  | ok granted =>
    have drawn := @Connection.drawn_of_check ids c w.nodes w.edges granted h.wellFormed.sound checked
    exact ⟨drawn.draws.later, h.addDrawn distinct drawn⟩

/-- A new block in an edge: the edge is taken out, and what is connected anew may be. -/
theorem yields_splice (h : w.Settled ids) (distinct : ids.Distinct) {n : Node} (new : n.id ∉ w.nodeIds)
    (named : n.id ≠ "") (plain : n.isA .trigger = false) (canonical : n.config.Canonical)
    (spared : ids.Spares n.id) (source : String) (handle : Option String) :
    (splice w n source handle).Yields ids fun after v => v.Settled after := by
  have single : n.isA .trigger = true → w.trigger? = none := by
    intro isTrigger
    rw [plain] at isTrigger
    cases isTrigger
  unfold splice
  generalize (w.edges.find? fun edge => edge.leaves source handle) = displaced
  have added := (h.addNode new named single canonical spared).withoutEdges
    (displaced.map (·.id)).toList
  refine .bind (Connection.yields_draw added.wellFormed.sound) fun edge after later drawn => ?_
  have joined := added.addDrawn distinct drawn
  cases displaced with
  | none => exact Edit.yields_pure joined
  | some displaced =>
    dsimp only
    split
    · obtain ⟨onward, settled⟩ :=
        settled_connectIfAllowed joined (later.distinct distinct) (leadOut n.id displaced)
      exact (Edit.yields_liftM onward settled).after _
    · exact Edit.yields_pure joined

/-- An insertion yields what a splice of a new block does that is no trigger, laid out and recorded. -/
theorem yields_insertAfter_of {p : IdSource → Editor × Node → Prop} {q : Node → IdSource → Workflow → Prop}
    (h : e.workflow.Settled ids) {source : String} {handle : Option String}
    (spliced : ∀ n after, NodeRequest.Drawn ids n after → n.id ∉ e.workflow.nodeIds →
      n.isA .trigger = false → (splice e.workflow n source handle).Yields after (q n))
    (laid : ∀ n v t, ids.Later t → q n t v →
      p t (e.record (e.laidOut v) (some (.node n.id)), ((e.laidOut v).node? n.id).getD n))
    (kind title : Document) (config : Option Document) :
    (e.insertAfter source handle kind title config).Yields ids p := by
  unfold Editor.insertAfter
  refine .bind (Edit.yields_of (p := fun t _ => t = ids) fun _ _ => rfl) fun _ t _ same => ?_
  subst same
  refine .bind (Edit.yields_of (p := fun t' _ => t' = t) fun _ _ => rfl) fun kind t' _ same => ?_
  subst same
  refine .bind (NodeRequest.yields_draw rfl) fun n after later drawn => ?_
  dsimp only
  split
  · exact Edit.yields_throw _
  · next plain =>
    have new : n.id ∉ e.workflow.nodeIds := fun there =>
      drawn.draws.not_mem (h.nodes _ there) List.mem_cons_self
    refine (spliced n after drawn new (by simpa using plain)).bind fun v t onward holds => ?_
    exact (Edit.yields_pure (laid n v t (later.trans onward) holds)).after _

theorem yields_insertAfter (h : e.Settled ids) (distinct : ids.Distinct) (source : String)
    (handle : Option String) (kind title : Document) (config : Option Document) :
    (e.insertAfter source handle kind title config).Yields ids fun after out => out.1.Settled after := by
  refine yields_insertAfter_of h.workflow (q := fun _ t v => v.Settled t) ?_ ?_ kind title config
  · intro n after drawn new plain
    have later := drawn.draws.later
    exact yields_splice (h.workflow.later later) (later.distinct distinct) new drawn.named plain
      drawn.canonical (drawn.draws.spares distinct _ List.mem_cons_self) source handle
  · intro n v t later settled
    exact (h.later later).record (settled_laidOut settled e) _

end Editor

end Journey
