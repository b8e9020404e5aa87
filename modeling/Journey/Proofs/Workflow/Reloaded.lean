import Journey.Proofs.Workflow.Legible
import Journey.Proofs.Workflow.Reread

/-!
# Journey.Proofs.Workflow.Reloaded -- a workflow that is restored is restored as it is stored

A workflow whose nodes and edges can be told apart by identifiers without blanks around them
(`Workflow.Addressed`) keeps them when it is stored and restored: no identifier is numbered on and none is
drawn, so that each node and each edge is restored from its own item, in its place
(`restoreNodes_documents`, `restoreEdges_documents`).

What is restored from any document is of this kind, and each of its parts is restored as something that is
stored in the same way (`steady_restore`).  It can be read once more, since what could be read of it was read
(`Readable.legible_restore`).  So its document does not change when it is restored and stored once more.  Main
statement: `document_tryRestore`.
-/

namespace Journey

set_option autoImplicit false

open Journey.Text (trim Trimmed)

namespace Workflow

variable {w : Workflow} {ids : IdSource} {d : Document} {nodes : List Node} {es : List Edge}
  {taken : List String}

/-! ## Identifiers that are kept -/

/-- The node that is restored from what is stored of a node at a position. -/
def reread (p : Node × Nat) : Node := restoreNode p.2 p.1.id (p.1.document .dropped)

/-- Nodes whose identifiers can be told apart keep them. -/
theorem restoreNodes_documents {ns : List Node} (named : ∀ n ∈ ns, Trimmed n.id ∧ n.id ≠ "")
    (distinct : (ns.map (·.id)).Nodup) (new : ∀ n ∈ ns, n.id ∉ taken) (position : Nat) :
    restoreNodes position taken (ns.map (Node.document .dropped)) = (ns.zipIdx position).map reread := by
  induction ns generalizing position taken with
  | nil => rfl
  | cons n ns ih =>
    obtain ⟨first, rest⟩ := List.forall_mem_cons.1 named
    obtain ⟨free, others⟩ := List.forall_mem_cons.1 new
    obtain ⟨single, distinct⟩ := List.nodup_cons.1 distinct
    have asked : askedId position (n.document .dropped).fields = n.id := by
      have stated : Fields.getD (n.document .dropped).fields "id" = .text n.id := getD_storedNode n _
      rw [askedId, stated, Document.trimmed?_text first]
      rfl
    have given : freeId taken n.id = n.id := if_neg (by simpa using free)
    rw [List.map_cons, restoreNodes, asked, given, List.zipIdx_cons, List.map_cons,
      ih rest distinct]
    · rfl
    · intro m mem
      rw [List.mem_append, List.mem_singleton, not_or]
      exact ⟨others m mem, fun same => single (List.mem_map.2 ⟨m, mem, same⟩)⟩

/-- An edge is restored from what is stored of an edge, and leaves a node with the identifier. -/
def RereadFrom (nodes : List Node) (e f : Edge) : Prop :=
  ∃ source ∈ nodes, source.id = e.source
    ∧ f = restoreEdge source e.target (e.document .dropped).fields

/-- Edges whose ends are nodes are kept. -/
theorem restoreEdges_documents (named : ∀ n ∈ nodes, Trimmed n.id)
    (ends : ∀ e ∈ es, e.source ∈ nodes.map (·.id) ∧ e.target ∈ nodes.map (·.id)) :
    List.Forall₂ (RereadFrom nodes) es (restoreEdges nodes (es.map (Edge.document .dropped))) := by
  induction es with
  | nil => exact .nil
  | cons e es ih =>
    obtain ⟨⟨leaves, enters⟩, rest⟩ := List.forall_mem_cons.1 ends
    have trimmed {id : String} (mem : id ∈ nodes.map (·.id)) : (Document.text id).trimmed = id := by
      obtain ⟨n, there, rfl⟩ := List.mem_map.1 mem
      exact named n there
    have stated : statedEnds (e.document .dropped) = (e.source, e.target) := by
      have source : Fields.getD (e.document .dropped).fields "source" = .text e.source :=
        getD_storedEdge e _
      have target : Fields.getD (e.document .dropped).fields "target" = .text e.target :=
        getD_storedEdge e _
      rw [statedEnds, source, target, trimmed leaves, trimmed enters]
    obtain ⟨source, found⟩ := Option.isSome_iff_exists.1 (isSome_indexed?.2 leaves)
    obtain ⟨_, there⟩ := Option.isSome_iff_exists.1 (isSome_indexed?.2 enters)
    obtain ⟨mem, same⟩ := mem_of_indexed? found
    rw [List.map_cons, restoreEdges_cons, stated, found, there]
    exact .cons ⟨source, mem, same, rfl⟩ (ih rest)

theorem RereadFrom.id {e f : Edge} (h : RereadFrom nodes e f) (named : Trimmed e.id) : f.id = e.id := by
  obtain ⟨source, -, -, rfl⟩ := h
  rw [restoreEdge_document]
  exact named

/-- Edges whose identifiers can be told apart keep them. -/
theorem identifyEdges_of_named (distinct : (es.map (·.id)).Nodup)
    (named : ∀ e ∈ es, e.id ≠ "" ∧ e.id ∉ taken) (ids : IdSource) :
    (identifyEdges taken es).run ids = (es, ids) := by
  induction es generalizing taken with
  | nil => rfl
  | cons e es ih =>
    obtain ⟨⟨nonempty, new⟩, rest⟩ := List.forall_mem_cons.1 named
    obtain ⟨single, distinct⟩ := List.nodup_cons.1 distinct
    have kept : (edgeName taken e).run ids = (e.id, ids) := by
      rw [edgeName, if_neg (by simpa using new), Fresh.orElse, if_neg (by simpa using nonempty)]
      rfl
    have others : ∀ f ∈ es, f.id ≠ "" ∧ f.id ∉ taken ++ [e.id] := by
      intro f mem
      rw [List.mem_append, List.mem_singleton, not_or]
      exact ⟨(rest f mem).1, (rest f mem).2, fun same => single (List.mem_map.2 ⟨f, mem, same⟩)⟩
    rw [run_identifyEdges_cons, kept]
    dsimp only
    rw [ih distinct others]

/-- Nodes and edges that can be told apart by identifiers without blanks around them, and edges between
nodes. -/
structure Addressed (w : Workflow) : Prop where
  nonempty : w.nodes ≠ []
  named : ∀ id ∈ w.nodeIds, Trimmed id ∧ id ≠ ""
  nodeIds : w.nodeIds.Nodup
  edgesNamed : ∀ id ∈ w.edgeIds, Trimmed id ∧ id ≠ ""
  edgeIds : w.edgeIds.Nodup
  ends : ∀ e ∈ w.edges, e.source ∈ w.nodeIds ∧ e.target ∈ w.nodeIds

theorem id_restoreNode (position : Nat) (id : String) (d : Document) :
    (restoreNode position id d).id = id := rfl

theorem id_reread (p : Node × Nat) : (reread p).id = p.1.id := id_restoreNode _ _ _

theorem map_id_reread (ns : List Node) (position : Nat) :
    ((ns.zipIdx position).map reread).map (·.id) = ns.map (·.id) := by
  have ids : (fun n : Node => n.id) ∘ reread = (fun n => n.id) ∘ Prod.fst := funext id_reread
  rw [List.map_map, ids, ← List.map_map, List.zipIdx_map_fst]

theorem map_id_of_rereadFrom {fs : List Edge} (h : List.Forall₂ (RereadFrom nodes) es fs)
    (named : ∀ e ∈ es, Trimmed e.id) : fs.map (·.id) = es.map (·.id) := by
  induction h with
  | nil => rfl
  | cons first _ ih =>
    obtain ⟨name, named⟩ := List.forall_mem_cons.1 named
    rw [List.map_cons, List.map_cons, first.id name, ih named]

namespace Addressed

variable (h : w.Addressed)

include h

theorem rereads : restoreNodes 0 [] (w.nodes.map (Node.document .dropped)) = w.nodes.zipIdx.map reread :=
  restoreNodes_documents (fun n mem => h.named n.id (List.mem_map_of_mem mem)) h.nodeIds (by simp) 0

theorem rereadEdges : List.Forall₂ (RereadFrom (w.nodes.zipIdx.map reread)) w.edges
    (restoreEdges (w.nodes.zipIdx.map reread) (w.edges.map (Edge.document .dropped))) := by
  have same := map_id_reread w.nodes 0
  refine restoreEdges_documents (fun n mem => ?_) fun e mem => ?_
  · have listed := List.mem_map_of_mem (f := Node.id) mem
    rw [same] at listed
    exact (h.named n.id listed).1
  · rw [same]
    exact h.ends e mem

/-- What is restored from the document of a workflow has its nodes and edges under their identifiers. -/
theorem run_restore (fallback : String) (ids : IdSource) :
    ∃ id edges, ((restore w.document fallback).run ids).1
        = underId (.text w.id)
          { id
            name := ((Document.text w.name).trimmed?).getD fallback
            status := w.status
            version := restoreVersion (.int w.version)
            nodes := w.nodes.zipIdx.map reread
            edges
            settings := w.settings
            runtimeMap := w.runtimeMap }
      ∧ List.Forall₂ (RereadFrom (w.nodes.zipIdx.map reread)) w.edges edges
      ∧ edges.map (·.id) = w.edgeIds := by
  have each := h.rereadEdges
  have same : (restoreEdges _ _).map (·.id) = w.edgeIds :=
    map_id_of_rereadFrom each fun e mem => (h.edgesNamed e.id (List.mem_map_of_mem mem)).1
  have kept (ids : IdSource) : (identifyEdges [] _).run ids = _ :=
    identifyEdges_of_named (same.symm ▸ h.edgeIds)
      (fun e mem => ⟨(h.edgesNamed e.id (same ▸ List.mem_map.2 ⟨e, mem, rfl⟩)).2, List.not_mem_nil⟩) ids
  have id : Fields.getD w.document.fields "id" = .text w.id := rfl
  have name : Fields.getD w.document.fields "name" = .text w.name := rfl
  have status : Fields.getD w.document.fields "status" = .text w.status.name := rfl
  have version : Fields.getD w.document.fields "version" = .int w.version := rfl
  have nodes : (Fields.getD w.document.fields "nodes").items = w.nodes.map (Node.document .dropped) :=
    rfl
  have edges : (Fields.getD w.document.fields "edges").items = w.edges.map (Edge.document .dropped) :=
    rfl
  have settings : Fields.getD w.document.fields "settings" = .object w.settings := rfl
  have runtimeMap : Fields.getEither w.document.fields "runtimeMap" "runtime_map"
      = .object w.runtimeMap := rfl
  have nonempty : (Fields.getD w.document.fields "nodes").items ≠ [] := by
    rw [nodes, ne_eq, List.map_eq_nil_iff]
    exact h.nonempty
  obtain ⟨drawn, -, restored⟩ := run_restore_of_items nonempty fallback ids
  refine ⟨drawn, _, ?_, each, same⟩
  rw [restored, ofItems, id, name, status, version, nodes, edges, settings, runtimeMap, h.rereads,
    kept, Document.nameIn_workflowStatus]
  rfl

end Addressed

/-! ## Workflows that are stored as they were -/

/-- A workflow of which every part is restored as something that is stored in the same way. -/
structure Steady (w : Workflow) : Prop extends Addressed w where
  id : w.id ≠ ""
  name : Trimmed w.name ∧ w.name ≠ ""
  version : restoreVersion (.int w.version) = w.version
  nodes : ∀ p ∈ w.nodes.zipIdx, p.1.Steady p.2
  edges : ∀ e ∈ w.edges, ∀ n ∈ w.nodes, n.id = e.source → e.Steady n

theorem config_reread {p : Node × Nat} (apart : p.1.config.Apart) :
    (reread p).config = p.1.config.reloaded := config_restoreNode_document apart _ _

theorem kind_reread {p : Node × Nat} (apart : p.1.config.Apart) : (reread p).kind = p.1.kind := by
  rw [Node.kind, config_reread apart, Config.kind_reloaded, Node.kind]

theorem documents_reread {ns : List Node} {position : Nat}
    (steady : ∀ p ∈ ns.zipIdx position, p.1.Steady p.2) :
    ((ns.zipIdx position).map reread).map (Node.document .dropped) = ns.map (Node.document .dropped) := by
  rw [List.map_map, ← List.zipIdx_map_fst position ns, List.map_map, List.zipIdx_map_fst]
  exact List.map_congr_left fun p mem => (steady p mem).same

theorem documents_rereadFrom {fs : List Edge} (each : List.Forall₂ (RereadFrom nodes) es fs)
    (same : ∀ e ∈ es, ∀ f, RereadFrom nodes e f → f.document .dropped = e.document .dropped) :
    fs.map (Edge.document .dropped) = es.map (Edge.document .dropped) := by
  induction each with
  | nil => rfl
  | cons first _ ih =>
    obtain ⟨one, same⟩ := List.forall_mem_cons.1 same
    rw [List.map_cons, List.map_cons, one _ first, ih same]

namespace Steady

/-- The edge that is restored of a stored edge is stored in the same way. -/
theorem document_rereadFrom (h : w.Steady) {e f : Edge} (mem : e ∈ w.edges)
    (reread : RereadFrom (w.nodes.zipIdx.map reread) e f) : f.document .dropped = e.document .dropped := by
  obtain ⟨_, mem', leaves, rfl⟩ := reread
  obtain ⟨p, there, rfl⟩ := List.mem_map.1 mem'
  have steady := h.nodes p there
  have listed : p.1 ∈ w.nodes := by
    rw [← List.zipIdx_map_fst 0 w.nodes]
    exact List.mem_map_of_mem there
  have clauses : (Workflow.reread p).config.clauses = p.1.config.clauses := by
    rw [config_reread steady.apart, Config.clauses_reloaded]
  rw [restoreEdge_congr (id_reread p) (kind_reread steady.apart) clauses]
  exact (h.edges e mem p.1 listed ((id_reread p).symm.trans leaves)).same

/-- What is restored of the document of a workflow is stored in the same way. -/
theorem document_restore (h : w.Steady) (fallback : String) (ids : IdSource) :
    ((restore w.document fallback).run ids).1.document = w.document := by
  obtain ⟨id, edges, restored, each, -⟩ := h.toAddressed.run_restore fallback ids
  have nodeDocuments := documents_reread h.nodes
  have edgeDocuments := documents_rereadFrom each fun e mem f reread => h.document_rereadFrom mem reread
  have stated : (Document.text w.id).isVoid = false := by simpa [Document.isVoid] using h.id
  rw [restored, underId, if_neg (by simp [stated]), Document.trimmed?_text h.name, h.version, document,
    nodeDocuments, edgeDocuments]
  rfl

theorem underId (h : w.Steady) (d : Document) (shown : d.isVoid = false → d.shown ≠ "") :
    (underId d w).Steady := by
  unfold Workflow.underId
  split
  · exact h
  · next stated =>
    exact { h with id := shown (by simpa using stated) }

end Steady

/-! ## What is restored is steady -/

theorem restoreVersion_restoreVersion (d : Document) :
    restoreVersion (.int (restoreVersion d)) = restoreVersion d := by
  have one : (Decimal.Binary.ofFloat 1.0).truncated? = some 1 := by decide +kernel
  have stands : ∃ x, (Decimal.Binary.ofFloat x).truncated? = some (restoreVersion d) := by
    unfold restoreVersion
    dsimp only
    split
    · cases read : (Decimal.Binary.ofFloat (d.number 1.0)).truncated? with
      | none => exact ⟨_, one⟩
      | some n => exact ⟨_, read⟩
    · exact ⟨_, one⟩
  obtain ⟨x, stands⟩ := stands
  have low := one_le_restoreVersion d
  generalize restoreVersion d = n at stands low
  obtain ⟨y, written, same⟩ := Decimal.truncated?_ofInt? low stands
  have number : (Document.int n).number 1.0 = y := by rw [Document.number, written, Option.getD_some]
  rw [restoreVersion, number, same]
  exact if_pos low

theorem trimmed_edgeName (taken : List String) (plain : ids.Plain) {e : Edge} (named : Trimmed e.id) :
    Trimmed ((edgeName taken e).run ids).1 ∧ ((edgeName taken e).run ids).2.Plain := by
  have drawn : Trimmed ("edge_" ++ e.source ++ "_" ++ e.target ++ "_" ++ ids.suffix ids.used) := by
    have front : Trimmed "edge_" := by decide +kernel
    have back : Trimmed ("_" ++ ids.suffix ids.used) := by
      refine Text.trimmed_of_no_blank fun c mem => ?_
      rw [String.toList_append, List.mem_append] at mem
      rcases mem with bar | suffix
      · obtain rfl : c = '_' := by simpa using bar
        decide
      · exact plain _ c suffix
    have between := front.enclose back (by decide) (Text.append_ne_empty_left (by decide) _)
      (e.source ++ "_" ++ e.target)
    simpa only [String.append_assoc] using between
  unfold edgeName Fresh.orElse
  split
  · exact ⟨drawn, plain⟩
  · split
    · exact ⟨drawn, plain⟩
    · exact ⟨named, plain⟩

theorem trimmed_identifyEdges (taken : List String) (plain : ids.Plain) (named : ∀ e ∈ es, Trimmed e.id) :
    ∀ e ∈ ((identifyEdges taken es).run ids).1, Trimmed e.id := by
  induction es generalizing taken ids with
  | nil => exact fun e mem => nomatch mem
  | cons e es ih =>
    obtain ⟨first, rest⟩ := List.forall_mem_cons.1 named
    obtain ⟨name, plain⟩ := trimmed_edgeName taken plain first
    rw [run_identifyEdges_cons]
    exact List.forall_mem_cons.2 ⟨name, ih _ plain rest⟩

theorem eq_of_unnamed {e f : Edge} (same : unnamed f = unnamed e) : e = { f with id := e.id } :=
  congrArg (fun f : Edge => { f with id := e.id }) same.symm

/-- No member of the settings or counters of a stored node holds nothing. -/
def SolidItem (item : Document) : Prop :=
  (Fields.getD item.fields "config").fields.Solid ∧ (Fields.getD item.fields "meta").fields.Solid

instance (item : Document) : Decidable (SolidItem item) := inferInstanceAs (Decidable (_ ∧ _))

theorem steady_restoreNodes {items : List Document} (solid : ∀ item ∈ items, SolidItem item)
    (position : Nat) (taken : List String) :
    ∀ p ∈ (restoreNodes position taken items).zipIdx position, p.1.Steady p.2 := by
  induction items generalizing position taken with
  | nil => exact fun p mem => nomatch mem
  | cons item items ih =>
    obtain ⟨⟨config, counters⟩, rest⟩ := List.forall_mem_cons.1 solid
    rw [restoreNodes, List.zipIdx_cons]
    refine List.forall_mem_cons.2 ⟨?_, ih rest _ _⟩
    exact steady_restoreNode position (trimmed_freeId taken (trimmed_askedId position _)) config counters

theorem Intact.steady (intact : w.Intact) (trimmed : ∀ e ∈ w.edges, Trimmed e.id) (id : w.id ≠ "")
    (name : Trimmed w.name ∧ w.name ≠ "") (version : restoreVersion (.int w.version) = w.version)
    (nodes : ∀ p ∈ w.nodes.zipIdx, p.1.Steady p.2)
    (edges : ∀ e ∈ w.edges, e.id ≠ "" → ∀ n ∈ w.nodes, n.id = e.source → e.Steady n) : w.Steady := by
  have nonempty {e : Edge} (mem : e ∈ w.edges) : e.id ≠ "" :=
    fun void => intact.edgesNamed (void ▸ List.mem_map_of_mem mem)
  have edgesNamed : ∀ id ∈ w.edgeIds, Trimmed id ∧ id ≠ "" := by
    intro id mem
    obtain ⟨e, there, rfl⟩ := List.mem_map.1 mem
    exact ⟨trimmed e there, nonempty there⟩
  have addressed : w.Addressed :=
    ⟨intact.nonempty, intact.named, intact.nodeIds, edgesNamed, intact.edgeIds, intact.ends⟩
  exact ⟨addressed, id, name, version, nodes, fun e mem => edges e mem (nonempty mem)⟩

/-- A workflow that is restored from a document with nodes is steady. -/
theorem steady_ofItems (nonempty : (Fields.getD d.fields "nodes").items ≠ []) {fallback id : String}
    (named : Trimmed fallback ∧ fallback ≠ "") (stated : id ≠ "") (distinct : ids.Distinct)
    (plain : ids.Plain)
    (spared : ∀ item ∈ (Fields.getD d.fields "edges").items,
      ids.Spares (Fields.getD item.fields "id").trimmed)
    (solid : ∀ item ∈ (Fields.getD d.fields "nodes").items, SolidItem item) :
    (ofItems d fallback id ((identifyEdges [] (restoreEdges
      (restoreNodes 0 [] (Fields.getD d.fields "nodes").items)
      (Fields.getD d.fields "edges").items)).run ids).1).Steady := by
  have intact := intact_ofItems nonempty fallback id distinct spared
  have read : ∀ e ∈ restoreEdges (restoreNodes 0 [] (Fields.getD d.fields "nodes").items)
      (Fields.getD d.fields "edges").items, Trimmed e.id := by
    intro e mem
    obtain ⟨item, -, source, -, -, -, rfl⟩ := mem_restoreEdges mem
    exact Document.trimmed_trimmed _
  have trimmed := trimmed_identifyEdges [] plain read
  have nodes := steady_restoreNodes solid 0 []
  have tidy := Document.tidy_trimmed? (Fields.getD d.fields "name")
  have version := restoreVersion_restoreVersion (Fields.getD d.fields "version")
  have distinctNodes := nodup_ids_restoreNodes 0 [] (Fields.getD d.fields "nodes").items
  have edges : ∀ e ∈ ((identifyEdges [] (restoreEdges
      (restoreNodes 0 [] (Fields.getD d.fields "nodes").items)
      (Fields.getD d.fields "edges").items)).run ids).1, e.id ≠ "" →
        ∀ n ∈ restoreNodes 0 [] (Fields.getD d.fields "nodes").items, n.id = e.source → e.Steady n := by
    intro e mem nonempty n there leaves
    obtain ⟨f, memF, same⟩ := mem_identifyEdges mem
    rw [eq_of_unnamed same]
    obtain ⟨item, -, source, memSource, -, -, rfl⟩ := mem_restoreEdges memF
    -- the node that the edge leaves is the one that it was restored from
    have sources : source.id = e.source := congrArg Edge.source same
    obtain rfl : source = n :=
      List.inj_on_of_nodup_map distinctNodes memSource there (sources.trans leaves.symm)
    exact steady_restoreEdge source _ _ ⟨trimmed e mem, nonempty⟩
  dsimp only [ofItems] at intact ⊢
  generalize restoreNodes 0 [] (Fields.getD d.fields "nodes").items = ns at intact nodes edges trimmed ⊢
  generalize ((identifyEdges [] (restoreEdges ns (Fields.getD d.fields "edges").items)).run ids).1 = es
    at intact edges trimmed ⊢
  generalize (Fields.getD d.fields "name").trimmed? = name at intact tidy ⊢
  generalize restoreVersion (Fields.getD d.fields "version") = n at intact version ⊢
  refine intact.steady trimmed stated ?_ version nodes edges
  cases name with
  | none => exact named
  | some s => exact tidy s rfl

theorem steady_starterNode {kind : NodeKind} {suffix : String} {place : Position} (position : Nat)
    (other : kind ≠ .condition) (plain : ∀ c ∈ suffix.toList, Text.isBlank c = false)
    (column : Decimal.isFinite place.x = true) (row : Decimal.isFinite place.y = true) :
    (starterNode kind suffix place).Steady position := by
  refine steady_of_parts ⟨trimmed_starterNode kind plain, joined_ne_empty _ _⟩ (trimmed_label kind) ?_
    rfl (Config.apart_standardConfig kind) ?_
  · rw [restorePosition_document]
    simp [starterNode, Document.number, column, row]
  · refine Config.document_reloaded (Config.apart_standardConfig kind) ?_
    exact fun same => other (kind.kind_standardConfig.symm.trans same)

/-- The starter is steady. -/
theorem steady_starter (plain : ids.Plain) {name : String} (named : Trimmed name ∧ name ≠ "") :
    ((Template.starter.create (some name)).run ids).1.Steady := by
  have intact := (intact_starter plain name).1
  have version : restoreVersion (.int 1) = 1 := by decide +kernel
  have left : Document.Tidy (some "out") ∧ Document.Tidy (some "in") := by
    refine ⟨fun s same => ?_, fun s same => ?_⟩ <;>
      · cases same
        decide +kernel
  rw [starter_eq] at intact ⊢
  generalize ht : starterNode .trigger (ids.suffix ids.used) ⟨360.0, 80.0⟩ = t at intact ⊢
  generalize hx : starterNode .exit (ids.suffix (ids.used + 1)) ⟨360.0, 240.0⟩ = x at intact ⊢
  have trigger : t.isA .condition = false := ht ▸ rfl
  have first := intact.named t.id List.mem_cons_self
  have second := intact.named x.id (List.mem_cons_of_mem _ List.mem_cons_self)
  have edgeNamed : Trimmed ("edge_" ++ t.id ++ "_" ++ x.id) ∧ "edge_" ++ t.id ++ "_" ++ x.id ≠ "" := by
    have front : Trimmed "edge_" := by decide +kernel
    have between := front.enclose second.1 (by decide) second.2 (t.id ++ "_")
    refine ⟨by simpa only [String.append_assoc] using between, ?_⟩
    exact Text.append_ne_empty_left (Text.append_ne_empty_left
      (Text.append_ne_empty_left (by decide) _) _) _
  refine intact.steady (List.forall_mem_singleton.2 edgeNamed.1) (Text.append_ne_empty_left (by decide) _)
    named version ?_ (List.forall_mem_singleton.2 fun _ n mem leaves => ?_)
  · have column : Decimal.isFinite 360.0 = true := by decide +kernel
    have top : Decimal.isFinite 80.0 = true := by decide +kernel
    have bottom : Decimal.isFinite 240.0 = true := by decide +kernel
    refine List.forall_mem_cons.2 ⟨?_, List.forall_mem_singleton.2 ?_⟩
    · exact ht ▸ steady_starterNode 0 (by decide) (plain _) column top
    · exact hx ▸ steady_starterNode 1 (by decide) (plain _) column bottom
  · obtain rfl : n = t :=
      List.inj_on_of_nodup_map intact.nodeIds mem List.mem_cons_self leaves
    exact steady_edge_of_bare edgeNamed rfl left.1 left.2 trigger rfl rfl

/-! ## What can be read once more -/

/-- What is stored of a node can be read exactly if its settings can be read. -/
theorem readableNode_document_iff {n : Node} (apart : n.config.Apart) :
    ReadableNode (n.document .dropped) ↔ n.config.Legible := by
  have kind : statedKind (n.document .dropped) = n.kind := by
    have stated : Fields.getD (n.document .dropped).fields "kind" = .text n.kind.name := getD_storedNode n _
    rw [statedKind, stated, Document.nameIn_kind, Option.getD_some]
  have texts : ∀ key ∈ ["kind", "id", "title"],
      (Fields.getD (n.document .dropped).fields key).hasLong = false := by
    simp only [getD_storedNode]
    simp [storedNode, Fields.getD, Fields.get?_cons]
  have config : Fields.getD (n.document .dropped).fields "config" = n.config.document .dropped :=
    getD_storedNode n _
  have settings : (n.kind = .condition → Condition.Legible (n.config.document .dropped))
      ↔ n.config.Legible := by
    rw [Node.kind]
    generalize n.config = settings at apart
    cases settings with
    | condition c =>
      have regular : Fields.get? c.extra ConditionConfig.clausesKey.written = none :=
        apart.written _ List.mem_cons_self
      have same : Condition.Legible ((Config.condition c).document .dropped) ↔ (Config.condition c).Legible :=
        iff_of_eq (congrArg Conversion.Succeed (ConditionConfig.conversions_members regular))
      rw [← same]
      exact forall_prop_of_true rfl
    | _ => exact ⟨fun _ => Conversion.succeed_nil, fun _ condition => by cases condition⟩
  rw [← settings, ← kind, ← config]
  exact ⟨fun h => h.settings, fun h => ⟨texts, h⟩⟩

@[simp] theorem hasLong_ofText? (t : Option String) : (Document.ofText? t).hasLong = false := by
  cases t <;> simp [Document.ofText?]

/-- What is stored of an edge can always be read. -/
theorem readableEdge_document (nodes : List Node) (e : Edge) : ReadableEdge nodes (e.document .dropped) where
  texts := by
    simp only [getD_storedEdge]
    simp [storedEdge, Fields.getD, Fields.get?_cons]
  branch _ _ := by
    have sourceHandle : Fields.getEither (e.document .dropped).fields "sourceHandle" "source_handle"
        = .ofText? e.sourceHandle := getEither_storedEdge e rfl
    have targetHandle : Fields.getEither (e.document .dropped).fields "targetHandle" "target_handle"
        = .ofText? e.targetHandle := getEither_storedEdge e rfl
    have label : Fields.getD (e.document .dropped).fields "label" = .ofText? e.label := getD_storedEdge e _
    simp [sourceHandle, targetHandle, label]

/-- The document of a workflow can be read exactly if the settings of its nodes can be read. -/
theorem readable_document_iff (apart : ∀ n ∈ w.nodes, n.config.Apart) : Readable w.document ↔ w.Legible := by
  have nodes : (Fields.getD w.document.fields "nodes").items = w.nodes.map (Node.document .dropped) := rfl
  have edges : (Fields.getD w.document.fields "edges").items = w.edges.map (Edge.document .dropped) := rfl
  have each : (∀ item ∈ (Fields.getD w.document.fields "nodes").items, ReadableNode item) ↔ w.Legible := by
    rw [nodes, List.forall_mem_map]
    exact forall₂_congr fun n mem => readableNode_document_iff (apart n mem)
  refine ⟨fun h => each.1 h.nodes, fun h => ⟨?_, each.2 h, fun _ => ?_⟩⟩
  · have name : Fields.getD w.document.fields "name" = .text w.name := rfl
    have id : Fields.getD w.document.fields "id" = .text w.id := rfl
    simp [name, id]
  · rw [edges, List.forall_mem_map]
    exact fun e _ => readableEdge_document _ e

theorem legible_restoreNode {item : Document} (h : ReadableNode item) (position : Nat) (id : String) :
    (restoreNode position id item).config.Legible := by
  generalize known : statedKind item = kind
  rw [restoreNode_eq known]
  have salvaged := Config.kind_salvage kind.kind_standardConfig (Fields.getD item.fields "config")
  by_cases condition : kind = .condition
  · subst condition
    exact ConditionConfig.legible_canonical (h.settings known)
  · exact Config.legible_of_kind_ne (fun same => condition (salvaged.symm.trans same))

/-- What is restored from a document that can be read can be read. -/
theorem Readable.legible_restore (h : Readable d) (fallback : String) (ids : IdSource) :
    ((restore d fallback).run ids).1.Legible := by
  intro n mem
  by_cases void : (Fields.getD d.fields "nodes").items = []
  · rw [run_restore_of_no_items void, nodes_underId, starter_eq] at mem
    rcases List.mem_cons.1 mem with rfl | mem
    · exact Conversion.succeed_nil
    · rw [List.mem_singleton.1 mem]
      exact Conversion.succeed_nil
  · obtain ⟨id, -, same⟩ := run_restore_of_items void fallback ids
    rw [same, nodes_underId] at mem
    obtain ⟨item, there, position, taken, -, rfl⟩ := comesFrom_of_mem mem
    exact legible_restoreNode (h.nodes item there) position _

/-! ## The document does not change -/

theorem steady_restore (d : Document) (distinct : ids.Distinct) (plain : ids.Plain)
    (spared : ∀ item ∈ (Fields.getD d.fields "edges").items,
      ids.Spares (Fields.getD item.fields "id").trimmed)
    (solid : ∀ item ∈ (Fields.getD d.fields "nodes").items, SolidItem item) :
    ((restore d).run ids).1.Steady := by
  have named : Trimmed untitled ∧ untitled ≠ "" := by decide +kernel
  by_cases void : (Fields.getD d.fields "nodes").items = []
  · rw [run_restore_of_no_items void]
    refine (steady_starter plain ?_).underId _ Document.shown_ne_empty
    cases name : (Fields.getD d.fields "name").trimmed? with
    | none => exact named
    | some s => exact Document.tidy_trimmed? _ s name
  · obtain ⟨id, stated, same⟩ := run_restore_of_items void untitled ids
    rw [same]
    exact (steady_ofItems void named stated distinct plain spared solid).underId _ Document.shown_ne_empty

/-- Exactly the documents that can be read are restored, and what is restored and stored is restored once more
and stored in the same way, provided that no member of the settings or counters of a node held nothing.  The
identifiers that are drawn have to be new. -/
theorem document_tryRestore (d : Document) (ids' : IdSource) (distinct : ids.Distinct) (plain : ids.Plain)
    (spared : ∀ item ∈ (Fields.getD d.fields "edges").items,
      ids.Spares (Fields.getD item.fields "id").trimmed)
    (solid : ∀ item ∈ (Fields.getD d.fields "nodes").items, SolidItem item) :
    ((∃ m, tryRestore d = .ok m) ↔ Readable d)
      ∧ ∀ m, tryRestore d = .ok m → ∃ m', tryRestore (m.run ids).1.document = .ok m'
          ∧ (m'.run ids').1.document = (m.run ids).1.document := by
  refine ⟨exists_tryRestore_iff, fun m restored => ?_⟩
  obtain ⟨reads, rfl⟩ := tryRestore_eq_ok_iff.1 restored
  have steady := steady_restore d distinct plain spared solid
  have apart : ∀ n ∈ ((restore d).run ids).1.nodes, n.config.Apart := by
    intro n mem
    rw [← List.zipIdx_map_fst 0 ((restore d).run ids).1.nodes] at mem
    obtain ⟨p, there, rfl⟩ := List.mem_map.1 mem
    exact (steady.nodes p there).apart
  have again : Readable ((restore d).run ids).1.document :=
    (readable_document_iff apart).2 (reads.legible_restore untitled ids)
  exact ⟨_, tryRestore_eq_ok_iff.2 ⟨again, rfl⟩, steady.document_restore untitled ids'⟩

/-- A document with an identifier that is used twice, a condition of the older flat form with an older
handle and label, a pause of no length, an item that is no node and an edge that leads nowhere. -/
def weathered : Document :=
  .object
    [("name", .text " Welcome "), ("version", .text "2"),
     ("nodes", .list
      [.object [("id", .text "start"), ("kind", .text "Trigger"),
         ("meta", .object [("enrollment_count", .int 3)])],
       .object [("id", .text "start"), ("kind", .text "condition"),
         ("config", .object [("rule", .text "tag_exists"), ("value", .text "vip")])],
       .object [("kind", .text "wait"),
         ("config", .object [("duration", .text "soon"), ("time_window_start", .text "08:00")])],
       .int 7]),
     ("edges", .list
      [.object [("id", .text "e"), ("source", .text "start"), ("target", .text "start_2")],
       .object [("id", .text "e"), ("source", .text "start_2"), ("target", .text "node_3"),
         ("sourceHandle", .text "yes"), ("label", .text "Yes")],
       .object [("source", .text "start_2")]])]

theorem document_tryRestore_weathered :
    ∃ m m', tryRestore weathered = .ok m
      ∧ let w := (m.run .strokes).1
        tryRestore w.document = .ok m' ∧ (m'.run .strokes).1.document = w.document
          ∧ w.nodeIds = ["start", "start_2", "node_3", "node_4"]
          ∧ w.edges.map (·.label) = [none, some "If"] := by
  have unmarked : ∀ item ∈ (Fields.getD weathered.fields "edges").items,
      '#' ∉ (Fields.getD item.fields "id").trimmed.toList := by decide +kernel
  have solid : ∀ item ∈ (Fields.getD weathered.fields "nodes").items, SolidItem item := by decide +kernel
  obtain ⟨reads, again⟩ := document_tryRestore weathered .strokes IdSource.distinct_strokes
    IdSource.plain_strokes (fun item mem => IdSource.spares_strokes (unmarked item mem)) solid
  obtain ⟨m, restored⟩ := reads.2 (by decide +kernel)
  obtain ⟨m', restored', same⟩ := again m restored
  refine ⟨m, m', restored, restored', same, ?_⟩
  rw [← (tryRestore_eq_ok_iff.1 restored).2]
  decide +kernel

/-- Members that hold something are not enough: a document that cannot be read has no workflow to store. -/
theorem not_document_unreadable :
    (∀ item ∈ (Fields.getD unreadable.fields "nodes").items, SolidItem item)
      ∧ ¬ ∃ m m', tryRestore unreadable = .ok m ∧ tryRestore (m.run .strokes).1.document = .ok m'
          ∧ (m'.run .strokes).1.document = (m.run .strokes).1.document := by
  refine ⟨by decide +kernel, ?_⟩
  rintro ⟨m, -, restored, -⟩
  exact not_readable_unreadable (exists_tryRestore_iff.1 ⟨m, restored⟩)

end Workflow

end Journey
