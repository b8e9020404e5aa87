import Journey.Proofs.Condition.Reading
import Journey.Proofs.Graph.Agreement
import Journey.Workflow.Change

/-!
# Journey.Proofs.Graph.WellFormed -- workflows that editing keeps in shape

A workflow is well formed when its nodes and its edges can be told apart by their identifiers, it has
no second trigger, its edges are sound, and the clauses of every condition have canonical handles.  It is
valid as soon as it has a trigger (`WellFormed.problems_eq_nil_iff`).

Only the identifiers and settings of nodes matter for this, their faces, and only the identifiers, ends
and doors of edges (`WellFormed.congr`).  The changes of which every edit is made keep a workflow well
formed: fewer nodes and edges (`WellFormed.restrict`), a node or an edge more (`WellFormed.addNode`,
`WellFormed.addEdge`), other settings for a node (`WellFormed.reconfigure`), and nodes and edges from
elsewhere (`WellFormed.append`).
-/

namespace Journey

set_option autoImplicit false

/-- Settings whose clauses, if they have any, have canonical handles. -/
def Config.Canonical : Config → Prop
  | .condition c => c.Canonical
  | _ => True

theorem Config.canonical_of_kind {c : Config} (other : c.kind ≠ .condition) : c.Canonical := by
  cases c with
  | condition c => exact absurd rfl other
  | _ => trivial

theorem NodeKind.canonical_standardConfig (k : NodeKind) : k.standardConfig.Canonical := by
  cases k with
  | condition =>
    have regular : ConditionConfig.Regular {} := by
      refine ⟨rfl, fun clause mem => ?_⟩
      rw [List.mem_singleton.1 mem]
      rfl
    exact ⟨regular, [], rfl, .refl _⟩
  | _ => trivial

/-- What matters of a node. -/
def Node.face (n : Node) : String × Config := (n.id, n.config)

/-- What matters of an edge besides its identifier: its ends and its door. -/
def Edge.bare (e : Edge) : Edge :=
  { id := "", source := e.source, target := e.target, sourceHandle := some e.door }

namespace Workflow

/-- Identifiers tell nodes and edges apart, there is no second trigger, the edges are sound, and every
condition has canonical handles. -/
structure WellFormed (w : Workflow) : Prop where
  nodeIds : w.nodeIds.Nodup
  named : "" ∉ w.nodeIds
  edgeIds : w.edgeIds.Nodup
  trigger : w.nodes.countP (·.isA .trigger) ≤ 1
  sound : Sound (settings? w.nodes) w.edges
  canonical : ∀ n ∈ w.nodes, n.config.Canonical

variable {w v : Workflow} {nodes more : List Node} {edges others : List Edge}
  {at? look? : String → Option Config}

/-! ## Valid workflows -/

theorem wellFormed_of_valid (valid : w.problems = []) (named : "" ∉ w.nodeIds)
    (edgeIds : w.edgeIds.Nodup) (canonical : ∀ n ∈ w.nodes, n.config.Canonical) : w.WellFormed := by
  obtain ⟨one, nodeIds, sound⟩ := (problems_eq_nil_iff w).1 valid
  exact ⟨nodeIds, named, edgeIds, Nat.le_of_eq one, sound, canonical⟩

/-- All that a well-formed workflow may lack to be valid is its trigger. -/
theorem WellFormed.problems_eq_nil_iff (h : w.WellFormed) :
    w.problems = [] ↔ ∃ n ∈ w.nodes, n.isA .trigger = true := by
  rw [Workflow.problems_eq_nil_iff, ← List.countP_pos_iff]
  constructor
  · rintro ⟨one, -⟩
    omega
  · intro triggered
    have single := h.trigger
    exact ⟨by omega, h.nodeIds, h.sound⟩

/-- No two edges are the same connection. -/
theorem WellFormed.nodup_connections (h : w.WellFormed) :
    (w.edges.map fun e => (e.source, e.target, e.door)).Nodup := by
  refine List.pairwise_map.2 (h.sound.apart.imp fun {e f} apart same => ?_)
  simp only [Prod.mk.injEq] at same
  exact apart.connections same.1 same.2.1 same.2.2

/-! ## Faces of nodes, bare edges -/

theorem settings?_eq_faces (nodes : List Node) (id : String) :
    settings? nodes id = ((nodes.map Node.face).reverse.find? fun f => f.1 == id).map (·.2) := by
  rw [settings?, indexed?, ← List.map_reverse, List.find?_map, Option.map_map]
  rfl

theorem settings?_congr (faces : more.map Node.face = nodes.map Node.face) :
    settings? more = settings? nodes := by
  funext id
  rw [settings?_eq_faces, settings?_eq_faces, faces]

theorem map_id_eq_faces (nodes : List Node) :
    nodes.map (·.id) = (nodes.map Node.face).map (·.1) := by
  rw [List.map_map]
  rfl

/-- Nodes with the same faces have the same identifiers. -/
theorem nodeIds_congr (faces : v.nodes.map Node.face = w.nodes.map Node.face) :
    v.nodeIds = w.nodeIds := by
  rw [nodeIds, nodeIds, map_id_eq_faces, faces, ← map_id_eq_faces]

theorem countP_isA_eq_faces (kind : NodeKind) (nodes : List Node) :
    nodes.countP (·.isA kind) = (nodes.map Node.face).countP fun f => f.2.kind == kind := by
  rw [List.countP_map]
  rfl

theorem fits_bare {e : Edge} : e.bare.Fits at? ↔ e.Fits at? := Iff.rfl

theorem apart_bare {e f : Edge} : e.bare.Apart at? f.bare ↔ e.Apart at? f := by
  constructor
  · rintro ⟨⟨connections, doors⟩, inputs⟩
    exact ⟨⟨connections, doors⟩, inputs⟩
  · rintro ⟨⟨connections, doors⟩, inputs⟩
    exact ⟨⟨connections, doors⟩, inputs⟩

/-- Only the ends and doors of edges matter for their soundness. -/
theorem sound_map_bare_iff : Sound at? (edges.map Edge.bare) ↔ Sound at? edges := by
  constructor
  · rintro ⟨fits, apart, acyclic⟩
    refine ⟨fun e mem => fits_bare.1 (fits e.bare (List.mem_map_of_mem mem)), ?_, ?_⟩
    · exact (List.pairwise_map.1 apart).imp fun h => apart_bare.1 h
    · exact acyclic.along fun e mem => ⟨e.bare, List.mem_map_of_mem mem, rfl, rfl⟩
  · rintro ⟨fits, apart, acyclic⟩
    refine ⟨fun e mem => ?_, ?_, acyclic.along fun e mem => ?_⟩
    · obtain ⟨f, memF, rfl⟩ := List.mem_map.1 mem
      exact fits_bare.2 (fits f memF)
    · exact List.pairwise_map.2 (apart.imp fun h => apart_bare.2 h)
    · obtain ⟨f, memF, rfl⟩ := List.mem_map.1 mem
      exact ⟨f, memF, rfl, rfl⟩

/-- Only the faces of nodes, and the identifiers, ends and doors of edges matter. -/
theorem WellFormed.congr (h : w.WellFormed) (faces : v.nodes.map Node.face = w.nodes.map Node.face)
    (edgeIds : v.edgeIds = w.edgeIds) (bare : v.edges.map Edge.bare = w.edges.map Edge.bare) :
    v.WellFormed where
  nodeIds := nodeIds_congr faces ▸ h.nodeIds
  named := nodeIds_congr faces ▸ h.named
  edgeIds := edgeIds ▸ h.edgeIds
  trigger := by
    rw [countP_isA_eq_faces, faces, ← countP_isA_eq_faces]
    exact h.trigger
  sound := by
    rw [settings?_congr faces, ← sound_map_bare_iff, bare, sound_map_bare_iff]
    exact h.sound
  canonical := by
    intro n mem
    have face : n.face ∈ w.nodes.map Node.face := faces ▸ List.mem_map_of_mem mem
    obtain ⟨m, memM, same⟩ := List.mem_map.1 face
    have config : m.config = n.config := congrArg Prod.snd same
    exact config ▸ h.canonical m memM

/-- What is found first under an identifier is what is found last. -/
theorem WellFormed.settings?_of_node? (h : w.WellFormed) {id : String} {n : Node}
    (found : w.node? id = some n) : settings? w.nodes n.id = some n.config :=
  (settings?_eq_some_iff h.nodeIds).2 ⟨n, List.mem_of_find?_eq_some found, rfl, rfl⟩

/-! ## Fewer nodes and edges -/

/-- Where identifiers are distinct, the nodes that stay are found as before. -/
theorem settings?_sublist (distinct : (nodes.map (·.id)).Nodup)
    (faces : (more.map Node.face).Sublist (nodes.map Node.face)) {id : String}
    (stays : id ∈ more.map (·.id)) : settings? more id = settings? nodes id := by
  have fewer : (more.map (·.id)).Sublist (nodes.map (·.id)) := by
    rw [map_id_eq_faces, map_id_eq_faces]
    exact faces.map _
  obtain ⟨c, found⟩ := Option.isSome_iff_exists.1 (isSome_settings?.2 stays)
  obtain ⟨n, mem, same, config⟩ := (settings?_eq_some_iff (distinct.sublist fewer)).1 found
  obtain ⟨m, memM, face⟩ := List.mem_map.1 (faces.subset (List.mem_map_of_mem mem))
  rw [found]
  refine ((settings?_eq_some_iff distinct).2 ⟨m, memM, ?_, ?_⟩).symm
  · exact (congrArg Prod.fst face).trans same
  · exact (congrArg Prod.snd face).trans config

theorem WellFormed.restrict (h : w.WellFormed)
    (faces : (v.nodes.map Node.face).Sublist (w.nodes.map Node.face)) (fewer : v.edges.Sublist w.edges)
    (ends : ∀ e ∈ v.edges, e.source ∈ v.nodeIds ∧ e.target ∈ v.nodeIds) : v.WellFormed where
  nodeIds := by
    have ids := h.nodeIds
    rw [Workflow.nodeIds, map_id_eq_faces] at ids ⊢
    exact ids.sublist (faces.map _)
  named := by
    have named := h.named
    rw [Workflow.nodeIds, map_id_eq_faces] at named ⊢
    exact fun mem => named ((faces.map _).subset mem)
  edgeIds := h.edgeIds.sublist (fewer.map _)
  trigger := by
    have trigger := h.trigger
    rw [countP_isA_eq_faces] at trigger ⊢
    exact Nat.le_trans (faces.countP_le) trigger
  sound := (h.sound.sublist fewer).congr fun e mem =>
    ⟨settings?_sublist h.nodeIds faces (ends e mem).1,
      settings?_sublist h.nodeIds faces (ends e mem).2⟩
  canonical := by
    intro n mem
    obtain ⟨m, memM, same⟩ := List.mem_map.1 (faces.subset (List.mem_map_of_mem mem))
    have config : m.config = n.config := congrArg Prod.snd same
    exact config ▸ h.canonical m memM

theorem WellFormed.ends (h : w.WellFormed) {e : Edge} (mem : e ∈ w.edges) :
    e.source ∈ w.nodeIds ∧ e.target ∈ w.nodeIds :=
  ⟨isSome_settings?.1 (h.sound.fits e mem).source_isSome,
    isSome_settings?.1 (h.sound.fits e mem).target_isSome⟩

theorem WellFormed.withoutNodes (h : w.WellFormed) (ids : List String) :
    (w.withoutNodes ids).WellFormed := by
  refine h.restrict (List.filter_sublist.map _) List.filter_sublist fun e mem => ?_
  obtain ⟨memE, source, target⟩ := mem_edges_withoutNodes.1 mem
  have stays (id : String) (there : id ∈ w.nodeIds) (kept : id ∉ ids) :
      id ∈ (w.withoutNodes ids).nodeIds := by
    obtain ⟨n, memN, rfl⟩ := List.mem_map.1 there
    exact List.mem_map_of_mem (mem_nodes_withoutNodes.2 ⟨memN, kept⟩)
  exact ⟨stays _ (h.ends memE).1 source, stays _ (h.ends memE).2 target⟩

theorem WellFormed.withoutEdges (h : w.WellFormed) (ids : List String) :
    (w.withoutEdges ids).WellFormed :=
  h.restrict (List.Sublist.refl _) List.filter_sublist fun _ mem => h.ends (List.mem_filter.1 mem).1

/-- Nodes may be taken out in any way, if the edges that lose an end go with them. -/
theorem WellFormed.withoutLooseEdges (h : w.WellFormed)
    (faces : (v.nodes.map Node.face).Sublist (w.nodes.map Node.face)) (edges : v.edges = w.edges) :
    v.withoutLooseEdges.WellFormed := by
  refine h.restrict faces (edges ▸ List.filter_sublist) fun e mem => ?_
  have ends := (List.mem_filter.1 mem).2
  show e.source ∈ v.nodeIds ∧ e.target ∈ v.nodeIds
  simpa [hasNode] using ends

/-! ## More nodes and edges -/

theorem settings?_append (nodes more : List Node) (id : String) :
    settings? (nodes ++ more) id = (settings? more id).or (settings? nodes id) := by
  rw [settings?, indexed?, List.reverse_append, List.find?_append]
  cases found : more.reverse.find? fun n => n.id == id with
  | none => simp [settings?, indexed?, found]
  | some n => simp [settings?, indexed?, found]

theorem settings?_append_left (apart : ∀ n ∈ more, n.id ∉ nodes.map (·.id)) {id : String}
    (there : id ∈ nodes.map (·.id)) : settings? (nodes ++ more) id = settings? nodes id := by
  have absent : settings? more id = none := by
    rw [settings?_eq_none_iff]
    intro mem
    obtain ⟨n, memN, rfl⟩ := List.mem_map.1 mem
    exact apart n memN there
  rw [settings?_append, absent, Option.none_or]

theorem settings?_append_right {id : String} (there : id ∈ more.map (·.id)) :
    settings? (nodes ++ more) id = settings? more id := by
  obtain ⟨c, found⟩ := Option.isSome_iff_exists.1 (isSome_settings?.2 there)
  rw [settings?_append, found, Option.some_or]

/-- Two sound parts without a common node are sound together. -/
theorem Sound.append (h : Sound (settings? nodes) edges) (k : Sound (settings? more) others)
    (apart : ∀ n ∈ more, n.id ∉ nodes.map (·.id)) :
    Sound (settings? (nodes ++ more)) (edges ++ others) := by
  have left : ∀ e ∈ edges, e.source ∈ nodes.map (·.id) ∧ e.target ∈ nodes.map (·.id) :=
    fun e mem => ⟨isSome_settings?.1 (h.fits e mem).source_isSome,
      isSome_settings?.1 (h.fits e mem).target_isSome⟩
  have right : ∀ e ∈ others, e.source ∈ more.map (·.id) ∧ e.target ∈ more.map (·.id) :=
    fun e mem => ⟨isSome_settings?.1 (k.fits e mem).source_isSome,
      isSome_settings?.1 (k.fits e mem).target_isSome⟩
  have outside (id : String) (mem : id ∈ more.map (·.id)) : id ∉ nodes.map (·.id) := by
    obtain ⟨n, memN, rfl⟩ := List.mem_map.1 mem
    exact apart n memN
  have first : Sound (settings? (nodes ++ more)) edges := h.congr fun e mem =>
    ⟨settings?_append_left apart (left e mem).1, settings?_append_left apart (left e mem).2⟩
  have second : Sound (settings? (nodes ++ more)) others := k.congr fun e mem =>
    ⟨settings?_append_right (right e mem).1, settings?_append_right (right e mem).2⟩
  refine ⟨fun e mem => ?_, List.pairwise_append.2 ⟨first.apart, second.apart, ?_⟩, ?_⟩
  · rcases List.mem_append.1 mem with inFirst | inSecond
    · exact first.fits e inFirst
    · exact second.fits e inSecond
  · intro e memE f memF
    have sources : e.source ≠ f.source := fun same =>
      outside _ (right f memF).1 (same ▸ (left e memE).1)
    have targets : e.target ≠ f.target := fun same =>
      outside _ (right f memF).2 (same ▸ (left e memE).2)
    exact ⟨⟨fun same => absurd same sources, fun same => absurd same sources⟩,
      fun same => absurd same targets⟩
  · refine h.acyclic.append (· ∈ nodes.map (·.id)) k.acyclic left fun e mem => ?_
    exact ⟨outside _ (right e mem).1, outside _ (right e mem).2⟩

/-- Nodes and edges from elsewhere, as far as they can be told from what is there. -/
structure Joins (w : Workflow) (nodes : List Node) (edges : List Edge) : Prop where
  nodeIds : (nodes.map (·.id)).Nodup
  edgeIds : (edges.map (·.id)).Nodup
  newNodes : ∀ n ∈ nodes, n.id ∉ w.nodeIds
  newEdges : ∀ e ∈ edges, e.id ∉ w.edgeIds
  named : ∀ n ∈ nodes, n.id ≠ ""
  trigger : w.nodes.countP (·.isA .trigger) + nodes.countP (·.isA .trigger) ≤ 1
  sound : Sound (settings? nodes) edges
  canonical : ∀ n ∈ nodes, n.config.Canonical

theorem WellFormed.append (h : w.WellFormed) (k : w.Joins nodes edges) :
    WellFormed { w with nodes := w.nodes ++ nodes, edges := w.edges ++ edges } where
  nodeIds := by
    rw [Workflow.nodeIds, List.map_append, List.nodup_append]
    refine ⟨h.nodeIds, k.nodeIds, fun a old b new same => ?_⟩
    obtain ⟨n, mem, rfl⟩ := List.mem_map.1 new
    exact k.newNodes n mem (same ▸ old)
  named := by
    rw [Workflow.nodeIds, List.map_append, List.mem_append, not_or]
    refine ⟨h.named, fun new => ?_⟩
    obtain ⟨n, mem, void⟩ := List.mem_map.1 new
    exact k.named n mem void
  edgeIds := by
    rw [Workflow.edgeIds, List.map_append, List.nodup_append]
    refine ⟨h.edgeIds, k.edgeIds, fun a old b new same => ?_⟩
    obtain ⟨e, mem, rfl⟩ := List.mem_map.1 new
    exact k.newEdges e mem (same ▸ old)
  trigger := by
    rw [List.countP_append]
    exact k.trigger
  sound := h.sound.append k.sound k.newNodes
  canonical := by
    intro n mem
    rcases List.mem_append.1 mem with old | new
    · exact h.canonical n old
    · exact k.canonical n new

theorem WellFormed.addNode (h : w.WellFormed) {n : Node} (new : n.id ∉ w.nodeIds) (named : n.id ≠ "")
    (trigger : n.isA .trigger = true → w.trigger? = none) (canonical : n.config.Canonical) :
    (w.addNode n).WellFormed := by
  have joins : w.Joins [n] [] := by
    refine ⟨List.nodup_singleton _, List.nodup_nil, ?_, by simp, ?_, ?_, sound_nil, ?_⟩
    · exact List.forall_mem_singleton.2 new
    · exact List.forall_mem_singleton.2 named
    · cases isTrigger : n.isA .trigger with
      | false => simpa [isTrigger] using h.trigger
      | true =>
        have noTrigger : w.nodes.countP (·.isA .trigger) = 0 := by
          rw [List.countP_eq_zero]
          exact List.find?_eq_none.1 (trigger isTrigger)
        simp [noTrigger, isTrigger]
    · exact List.forall_mem_singleton.2 canonical
  have together := h.append joins
  rwa [List.append_nil] at together

theorem WellFormed.addEdge (h : w.WellFormed) {e : Edge} (new : e.id ∉ w.edgeIds)
    (sound : Sound (settings? w.nodes) (w.edges ++ [e])) : (w.addEdge e).WellFormed where
  nodeIds := h.nodeIds
  named := h.named
  edgeIds := by
    rw [Workflow.edgeIds, Workflow.addEdge, List.map_append, List.nodup_append]
    refine ⟨h.edgeIds, List.nodup_singleton _, fun a old b last same => ?_⟩
    rw [List.map_singleton, List.mem_singleton] at last
    exact new (last ▸ same ▸ old)
  trigger := h.trigger
  sound := sound
  canonical := h.canonical

/-! ## Another node in the place of one -/

/-- The first node with an identifier is replaced where it stands. -/
theorem replaceFirst_eq_of_find? {id : String} {n : Node} (f : Node → Node)
    (found : nodes.find? (fun n => n.id == id) = some n) :
    ∃ before after, nodes = before ++ n :: after
      ∧ replaceFirst id f nodes = before ++ f n :: after := by
  induction nodes with
  | nil => cases found
  | cons m nodes ih =>
    rw [List.find?_cons] at found
    split at found
    · next same =>
      cases found
      exact ⟨[], nodes, rfl, by rw [replaceFirst, if_pos same]; rfl⟩
    · next other =>
      obtain ⟨before, after, split, replaced⟩ := ih found
      refine ⟨m :: before, after, by rw [split]; rfl, ?_⟩
      rw [replaceFirst, if_neg (by simp [other]), replaced]
      rfl

theorem replaceFirst_eq_self {id : String} (f : Node → Node)
    (absent : nodes.find? (fun n => n.id == id) = none) : replaceFirst id f nodes = nodes := by
  induction nodes with
  | nil => rfl
  | cons m nodes ih =>
    rw [List.find?_cons] at absent
    split at absent
    · cases absent
    · next other => rw [replaceFirst, if_neg (by simp [other]), ih absent]

/-- What a replaced node has in common with the one before it, all nodes have as before. -/
theorem map_replaceFirst {α : Type} (view : Node → α) {id : String} {f : Node → Node}
    (same : ∀ n, nodes.find? (fun n => n.id == id) = some n → view (f n) = view n) :
    (replaceFirst id f nodes).map view = nodes.map view := by
  cases found : nodes.find? fun n => n.id == id with
  | none => rw [replaceFirst_eq_self f found]
  | some n =>
    obtain ⟨before, after, split, replaced⟩ := replaceFirst_eq_of_find? f found
    rw [replaced, split, List.map_append, List.map_append, List.map_cons, List.map_cons, same n found]

theorem nodeIds_updateNode {id : String} {f : Node → Node} (same : ∀ n, (f n).id = n.id) :
    (w.updateNode id f).nodeIds = w.nodeIds :=
  map_replaceFirst (·.id) fun n _ => same n

/-- A replaced node is found where the old one was. -/
theorem node?_updateNode {id : String} {f : Node → Node} (same : ∀ n, (f n).id = n.id) :
    (w.updateNode id f).node? id = (w.node? id).map f := by
  rw [node?, node?, updateNode]
  induction w.nodes with
  | nil => rfl
  | cons n nodes ih =>
    by_cases here : n.id = id
    · simp [replaceFirst, here, same]
    · simp [replaceFirst, here, ih]

theorem settings?_split {before after : List Node} {n : Node}
    (distinct : ((before ++ n :: after).map (·.id)).Nodup) (id : String) :
    settings? (before ++ n :: after) id
      = if id = n.id then some n.config else settings? (before ++ after) id := by
  rw [List.map_append, List.map_cons, List.nodup_middle, List.nodup_cons] at distinct
  have fresh : n.id ∉ (before ++ after).map (·.id) := by
    rw [List.map_append]
    exact distinct.1
  rw [settings?_append, ← List.singleton_append, settings?_append]
  split
  · next same =>
    subst same
    have absent : settings? after n.id = none := by
      rw [settings?_eq_none_iff]
      exact fun mem => fresh (by rw [List.map_append]; exact List.mem_append_right _ mem)
    rw [absent, Option.none_or]
    simp [settings?, indexed?]
  · next other =>
    have absent : settings? [n] id = none := by
      rw [settings?_eq_none_iff, List.map_singleton, List.mem_singleton]
      exact other
    rw [absent, Option.or_none, settings?_append]

/-- Where identifiers are distinct, a node is found first under its own. -/
theorem node?_of_mem (distinct : w.nodeIds.Nodup) {n : Node} (mem : n ∈ w.nodes) :
    w.node? n.id = some n := by
  have there : (w.node? n.id).isSome = true := List.find?_isSome.2 ⟨n, mem, beq_self_eq_true _⟩
  obtain ⟨m, found⟩ := Option.isSome_iff_exists.1 there
  have same : m.id = n.id := by simpa using List.find?_some found
  rw [found, List.inj_on_of_nodup_map distinct (List.mem_of_find?_eq_some found) mem same]

/-- Other settings are found at their node, and the others where they were. -/
theorem settings?_updateNode (distinct : w.nodeIds.Nodup) {n : Node} (found : w.node? n.id = some n)
    (config : Config) (id : String) :
    settings? (w.updateNode n.id fun n => { n with config }).nodes id
      = if id = n.id then some config else settings? w.nodes id := by
  obtain ⟨before, after, split, replaced⟩ :=
    replaceFirst_eq_of_find? (fun n => { n with config }) found
  have ids : (w.updateNode n.id fun n => { n with config }).nodeIds = w.nodeIds :=
    nodeIds_updateNode fun _ => rfl
  have nodes : (w.updateNode n.id fun n => { n with config }).nodes
      = before ++ { n with config } :: after := replaced
  have old : ((before ++ n :: after).map (·.id)).Nodup := split ▸ distinct
  rw [← ids, nodeIds, nodes] at distinct
  rw [nodes, settings?_split distinct]
  split
  · rfl
  · next other => rw [split, settings?_split old, if_neg other]

/-- A node with other settings of its kind, with edges that are sound for them. -/
theorem WellFormed.reconfigure (h : w.WellFormed) {n : Node} (found : w.node? n.id = some n)
    {config : Config} (kind : config.kind = n.kind) (canonical : config.Canonical)
    {edges : List Edge} (edgeIds : (edges.map (·.id)).Nodup)
    (sound : ∀ look?, look? n.id = some config →
      (∀ id, id ≠ n.id → look? id = settings? w.nodes id) → Sound look? edges) :
    WellFormed { w.updateNode n.id (fun n => { n with config }) with edges } := by
  obtain ⟨before, after, split, replaced⟩ :=
    replaceFirst_eq_of_find? (fun n => { n with config }) found
  have ids : (w.updateNode n.id fun n => { n with config }).nodeIds = w.nodeIds :=
    nodeIds_updateNode fun _ => rfl
  have nodes : (w.updateNode n.id fun n => { n with config }).nodes
      = before ++ { n with config } :: after := replaced
  refine ⟨?_, ?_, edgeIds, ?_, ?_, ?_⟩
  · exact ids ▸ h.nodeIds
  · exact ids ▸ h.named
  · have trigger := h.trigger
    rw [split, List.countP_append, List.countP_cons] at trigger
    have same : ({ n with config } : Node).isA .trigger = n.isA .trigger := by
      show (config.kind == .trigger) = (n.kind == .trigger)
      rw [kind]
    rw [nodes, List.countP_append, List.countP_cons, same]
    exact trigger
  · refine sound _ ?_ fun id other => ?_
    · rw [settings?_updateNode h.nodeIds found, if_pos rfl]
    · rw [settings?_updateNode h.nodeIds found, if_neg other]
  · intro m mem
    rw [nodes] at mem
    rcases List.mem_append.1 mem with old | here
    · exact h.canonical m (by simp [split, old])
    · rcases List.mem_cons.1 here with rfl | old
      · exact canonical
      · exact h.canonical m (by simp [split, old])

/-- Other settings keep edges sound that may leave by their doors still. -/
theorem Sound.reconfigure (h : Sound at? edges)
    (kinds : ∀ id, (look? id).map Config.kind = (at? id).map Config.kind)
    (offers : ∀ e ∈ edges, ∀ s t, at? e.source = some s → look? e.source = some t →
      s.Offers e.door → t.Offers e.door) : Sound look? edges where
  fits := by
    intro e mem
    obtain ⟨s, t, source, target, noExit, noTrigger, noLoop, door⟩ := h.fits e mem
    have source' := kinds e.source
    have target' := kinds e.target
    rw [source, Option.map_some, Option.map_eq_some_iff] at source'
    rw [target, Option.map_some, Option.map_eq_some_iff] at target'
    obtain ⟨s', found, kind⟩ := source'
    obtain ⟨t', found', kind'⟩ := target'
    exact ⟨s', t', found, found', kind ▸ noExit, kind' ▸ noTrigger, noLoop,
      offers e mem s s' source found door⟩
  apart := by
    have back {id : String} {c : Config} (found : look? id = some c) :
        ∃ d, at? id = some d ∧ d.kind = c.kind := by
      have := kinds id
      rw [found, Option.map_some, eq_comm, Option.map_eq_some_iff] at this
      exact this
    refine h.apart.imp fun {e f} apart => ⟨⟨apart.connections, fun source door c found => ?_⟩, ?_⟩
    · obtain ⟨d, found', kind⟩ := back found
      exact kind ▸ apart.doors source door d found'
    · intro target c found
      obtain ⟨d, found', kind⟩ := back found
      exact kind ▸ apart.inputs target d found'
  acyclic := h.acyclic

end Workflow

end Journey
