import Journey.Proofs.Decimal.Rounding
import Journey.Proofs.Graph.WellFormed
import Journey.Proofs.Supply
import Journey.Proofs.Text.Trimmed
import Journey.Proofs.Workflow.Readable

/-!
# Journey.Proofs.Workflow.Restored -- what is restored is intact, whatever was stored

Every document that can be read is restored to a workflow that is intact (`Workflow.Intact`), and nothing
is lost that can be kept: each item of the node list has its node and each item of the edge list whose
ends are nodes has its edge, in the order in which they are listed.  A document without nodes gives a
valid workflow of two blocks.

Identifiers are the one thing that passes from item to item.  That of a node is free among those before
it, whatever number it takes, and has no blanks around it (`trimmed_freeId`); that of an edge is the one
it asks for or a new one, and a new one is not among those before it since what is drawn differs from
all that is stated and all that was drawn (`identifyEdges_spec`).  Main statement:
`restoredFrom_tryRestore`.
-/

namespace Journey

set_option autoImplicit false

open Journey.Text (trim Trimmed)

/-- There are no blanks in any suffix. -/
def IdSource.Plain (s : IdSource) : Prop :=
  ∀ k, ∀ c ∈ (s.suffix k).toList, Text.isBlank c = false

theorem IdSource.plain_strokes : strokes.Plain := by
  intro k c mem
  simp only [strokes, String.toList_ofList, List.mem_cons] at mem
  rcases mem with rfl | stroke
  · decide
  · rw [List.eq_of_mem_replicate stroke]
    decide

variable {ids : IdSource}

/-! ## Texts and numbers of documents -/

namespace Document

variable {d : Document} {s : String} {fallback : Float}

theorem trimmed_trimmed (d : Document) : Trimmed d.trimmed := Text.trimmed_trim _

theorem trimmed?_eq_some_iff : d.trimmed? = some s ↔ d.trimmed = s ∧ s ≠ "" := by
  rw [trimmed?]
  by_cases void : d.trimmed = ""
  · rw [if_pos (by simpa using void), void]
    exact ⟨fun none => (by cases none), fun both => absurd both.1.symm both.2⟩
  · rw [if_neg (by simpa using void), Option.some.injEq]
    exact ⟨fun same => ⟨same, same ▸ void⟩, fun same => same.1⟩

/-- A document stands for a finite number or for the one that is given for it. -/
theorem isFinite_number_or (fallback : Float) (d : Document) :
    Decimal.isFinite (d.number fallback) = true ∨ d.number fallback = fallback := by
  cases d with
  | int n =>
    simp only [number, Decimal.ofInt?]
    split
    · next whole =>
      rw [Option.getD_some]
      left
      split
      · exact Decimal.isFinite_neg whole
      · exact whole
    · exact .inr rfl
  | float x =>
    simp only [number]
    split
    · exact .inl ‹_›
    · exact .inr rfl
  | text s =>
    simp only [number]
    cases read : (Decimal.freeReal? s).filter Decimal.isFinite with
    | none => exact .inr rfl
    | some x => exact .inl (Option.filter_eq_some_iff.1 read).2
  | _ => exact .inr rfl

theorem isFinite_number (finite : Decimal.isFinite fallback = true) (d : Document) :
    Decimal.isFinite (d.number fallback) = true := by
  rcases isFinite_number_or fallback d with own | given
  · exact own
  · rwa [given]

end Document

namespace Workflow

variable {taken : List String} {id : String} {position : Nat} {d : Document} {n : Node}

/-! ## Identifiers of nodes -/

theorem trimmed_askedId (position : Nat) (row : Fields) :
    Trimmed (askedId position row) ∧ askedId position row ≠ "" := by
  unfold askedId
  cases asked : (Fields.getD row "id").trimmed? with
  | none =>
    have node : Trimmed "node_" := by decide +kernel
    exact ⟨node.append (Text.trimmed_writeNat _) (by decide) (Text.writeNat_ne_empty _),
      Text.append_ne_empty_left (by decide) _⟩
  | some s =>
    obtain ⟨rfl, nonempty⟩ := Document.trimmed?_eq_some_iff.1 asked
    exact ⟨Document.trimmed_trimmed _, nonempty⟩

theorem trimmed_freeId (taken : List String) (h : Trimmed id ∧ id ≠ "") :
    Trimmed (freeId taken id) ∧ freeId taken id ≠ "" := by
  obtain ⟨trimmed, nonempty⟩ := h
  have bar : Trimmed "_" := by decide +kernel
  unfold freeId
  split
  · have stem := trimmed.append bar nonempty (by decide)
    have longer := Text.append_ne_empty_left nonempty "_"
    exact ⟨stem.append (Text.trimmed_writeNat _) longer (Text.writeNat_ne_empty _),
      Text.append_ne_empty_left longer _⟩
  · exact ⟨trimmed, nonempty⟩

/-! ## Nodes -/

/-- A node is restored from an item at a position below the bound, beside nodes that are there. -/
def ComesFrom (bound : Nat) (d : Document) (n : Node) : Prop :=
  ∃ position taken, position < bound
    ∧ n = restoreNode position (freeId taken (askedId position d.fields)) d

theorem forall₂_restoreNodes (position : Nat) (taken : List String) (ds : List Document) :
    List.Forall₂ (ComesFrom (position + ds.length)) ds (restoreNodes position taken ds) := by
  induction ds generalizing position taken with
  | nil => exact .nil
  | cons d ds ih =>
    refine .cons ⟨position, taken, by simp, rfl⟩ ?_
    have rest := ih (position + 1) (taken ++ [freeId taken (askedId position d.fields)])
    rwa [List.length_cons, Nat.add_comm ds.length, ← Nat.add_assoc]

/-- A node keeps what its item says of its kind and identifier: one that is taken gets a number. -/
def Keeps (d : Document) (n : Node) : Prop :=
  n.kind = ((Fields.getD d.fields "kind").nameIn NodeKind.named?).getD .wait
    ∧ ∀ asked, (Fields.getD d.fields "id").trimmed? = some asked →
        n.id = asked ∨ ∃ k, n.id = numbered asked k

theorem kind_restoreNode (position : Nat) (id : String) (d : Document) :
    (restoreNode position id d).kind
      = ((Fields.getD d.fields "kind").nameIn NodeKind.named?).getD .wait := by
  generalize named : ((Fields.getD d.fields "kind").nameIn NodeKind.named?).getD .wait = kind
  simp only [Node.kind, restoreNode, named]
  exact Config.kind_salvage kind.kind_standardConfig _

theorem ComesFrom.keeps {bound : Nat} (h : ComesFrom bound d n) : Keeps d n := by
  obtain ⟨position, taken, -, rfl⟩ := h
  refine ⟨kind_restoreNode _ _ d, fun asked given => ?_⟩
  show freeId taken (askedId position d.fields) = asked ∨ _
  rw [askedId, given, Option.getD_some]
  unfold freeId
  split
  · exact .inr ⟨_, rfl⟩
  · exact .inl rfl

theorem ComesFrom.trimmed {bound : Nat} (h : ComesFrom bound d n) : Trimmed n.id ∧ n.id ≠ "" := by
  obtain ⟨position, taken, -, rfl⟩ := h
  exact trimmed_freeId taken (trimmed_askedId position d.fields)

/-- The clauses of a restored condition have canonical handles. -/
theorem ComesFrom.canonical {bound : Nat} (h : ComesFrom bound d n) {c : ConditionConfig}
    (config : n.config = .condition c) : Handle.Canonical (c.clauses.map (·.id)) := by
  obtain ⟨position, taken, -, rfl⟩ := h
  have kind := congrArg Config.kind config
  change (restoreNode position _ d).kind = .condition at kind
  rw [kind_restoreNode] at kind
  simp only [restoreNode, kind, Config.salvage, Config.condition.injEq] at config
  rw [← config]
  exact Condition.canonical_canonical _

theorem ComesFrom.isFinite {bound : Nat} (h : ComesFrom bound d n) (range : bound ≤ 2 ^ 63) :
    Decimal.isFinite n.position.x = true ∧ Decimal.isFinite n.position.y = true := by
  obtain ⟨position, taken, below, rfl⟩ := h
  constructor
  · have grows {k : Nat} (larger : 126 < k) : 2 ^ 126 < 2 ^ k := Nat.pow_lt_pow_right (by decide) larger
    refine Document.isFinite_number (Decimal.isFinite_ofNat ?_) _
    calc position * nodeSpacing < 2 ^ 63 * 2 ^ 63 := by
          rw [nodeSpacing]
          omega
      _ = 2 ^ 126 := rfl
      _ < 2 ^ 1023 := grows (by decide)
  · exact Document.isFinite_number (by decide +kernel) _

/-! ## Edges -/

theorem currentHandle_ne (handle : String) :
    currentHandle handle ≠ "yes" ∧ currentHandle handle ≠ "no" := by
  unfold currentHandle
  split
  · decide
  · split
    · decide
    · next notYes notNo => exact ⟨notYes, notNo⟩

theorem map_currentHandle_ne (handle : Option String) :
    handle.map currentHandle ≠ some "yes" ∧ handle.map currentHandle ≠ some "no" := by
  cases handle with
  | none => decide
  | some h => simpa using currentHandle_ne h

/-- The trimmed texts at the ends of an item. -/
def statedEnds (d : Document) : String × String :=
  ((Fields.getD d.fields "source").trimmed, (Fields.getD d.fields "target").trimmed)

/-- The two ends of an edge. -/
def ends (e : Edge) : String × String := (e.source, e.target)

variable {nodes : List Node} {ds : List Document} {es : List Edge} {e : Edge}

/-- An edge is restored from an item, and leaves the last node that has the identifier. -/
theorem mem_restoreEdges (h : e ∈ restoreEdges nodes ds) :
    ∃ d ∈ ds, ∃ source ∈ nodes, indexed? nodes (Fields.getD d.fields "source").trimmed = some source
      ∧ (Fields.getD d.fields "target").trimmed ∈ nodes.map (·.id)
      ∧ e = restoreEdge source (Fields.getD d.fields "target").trimmed d.fields := by
  obtain ⟨d, mem, restored⟩ := List.mem_filterMap.1 h
  refine ⟨d, mem, ?_⟩
  dsimp only at restored
  split at restored
  · next source _ found there =>
    cases restored
    exact ⟨source, (mem_of_indexed? found).1, found, isSome_indexed?.1 (by rw [there]; rfl), rfl⟩
  · cases restored

theorem restoreEdges_cons (nodes : List Node) (d : Document) (ds : List Document) :
    restoreEdges nodes (d :: ds) =
      match indexed? nodes (statedEnds d).1, indexed? nodes (statedEnds d).2 with
      | some source, some _ =>
          restoreEdge source (statedEnds d).2 d.fields :: restoreEdges nodes ds
      | _, _ => restoreEdges nodes ds := by
  rw [restoreEdges, List.filterMap_cons]
  unfold statedEnds
  dsimp only
  cases indexed? nodes (Fields.getD d.fields "source").trimmed with
  | none => rfl
  | some source => cases indexed? nodes (Fields.getD d.fields "target").trimmed <;> rfl

/-- Exactly the items whose two ends are nodes give edges, in their order. -/
theorem map_ends_restoreEdges (nodes : List Node) (ds : List Document) :
    (restoreEdges nodes ds).map ends
      = (ds.map statedEnds).filter fun p =>
          (nodes.map (·.id)).contains p.1 && (nodes.map (·.id)).contains p.2 := by
  have known (id : String) :
      (nodes.map (·.id)).contains id = (indexed? nodes id).isSome := by
    rw [Bool.eq_iff_iff, List.contains_iff_mem, isSome_indexed?]
  induction ds with
  | nil => rfl
  | cons d ds ih =>
    rw [List.map_cons, List.filter_cons, known, known, restoreEdges_cons]
    cases source : indexed? nodes (statedEnds d).1 with
    | none => simpa using ih
    | some n =>
      cases target : indexed? nodes (statedEnds d).2 with
      | none => simpa using ih
      | some m =>
        have same : ends (restoreEdge n (statedEnds d).2 d.fields) = statedEnds d :=
          Prod.ext (mem_of_indexed? source).2 rfl
        simpa [same] using ih

/-- The edge without its identifier. -/
def unnamed (e : Edge) : Edge := { e with id := "" }

/-- Only identifiers are given to the edges. -/
theorem map_unnamed_identifyEdges (taken : List String) (es : List Edge) (ids : IdSource) :
    ((identifyEdges taken es).run ids).1.map unnamed = es.map unnamed := by
  induction es generalizing taken ids with
  | nil => rfl
  | cons e es ih => exact congrArg (unnamed e :: ·) (ih _ _)

/-- The identifier that an edge gets after those that are taken. -/
def edgeName (taken : List String) (e : Edge) : Fresh String :=
  Fresh.orElse (if taken.contains e.id then "" else e.id) (Fresh.edgeId e.source e.target)

/-- It is not empty, not taken, and not given again. -/
theorem edgeName_spec (distinct : ids.Distinct) (spared : ∀ id ∈ taken, ids.Spares id)
    (asked : ids.Spares e.id) :
    ids.Later ((edgeName taken e).run ids).2
      ∧ ((edgeName taken e).run ids).1 ≠ "" ∧ ((edgeName taken e).run ids).1 ∉ taken
      ∧ ((edgeName taken e).run ids).2.Spares ((edgeName taken e).run ids).1 := by
  have drawn := ids.draws_next ("edge_" ++ e.source ++ "_" ++ e.target ++ "_")
  have new : ids.Later ids.next
      ∧ "edge_" ++ e.source ++ "_" ++ e.target ++ "_" ++ ids.suffix ids.used ≠ ""
      ∧ "edge_" ++ e.source ++ "_" ++ e.target ++ "_" ++ ids.suffix ids.used ∉ taken
      ∧ ids.next.Spares ("edge_" ++ e.source ++ "_" ++ e.target ++ "_" ++ ids.suffix ids.used) := by
    refine ⟨ids.later_next, joined_ne_empty _ _, fun mem => ?_, ?_⟩
    · exact drawn.not_mem (spared _ mem) List.mem_cons_self
    · exact drawn.spares distinct _ List.mem_cons_self
  unfold edgeName
  split
  · exact new
  · next free =>
    by_cases void : e.id = ""
    · rw [void]
      exact new
    · have kept : Fresh.orElse e.id (Fresh.edgeId e.source e.target) = pure e.id := by
        rw [Fresh.orElse, if_neg (by simpa using void)]
      rw [kept]
      have notTaken : e.id ∉ taken := by simpa using free
      exact ⟨.refl ids, void, notTaken, asked⟩

theorem run_identifyEdges_cons (taken : List String) (e : Edge) (es : List Edge) (ids : IdSource) :
    (identifyEdges taken (e :: es)).run ids
      = (let name := (edgeName taken e).run ids
         let rest := (identifyEdges (taken ++ [name.1]) es).run name.2
         ({ e with id := name.1 } :: rest.1, rest.2)) := rfl

/-- The identifiers of the edges are different, and new ones differ from all that are stated. -/
theorem identifyEdges_spec (distinct : ids.Distinct) (spared : ∀ id ∈ taken, ids.Spares id)
    (asked : ∀ e ∈ es, ids.Spares e.id) :
    (((identifyEdges taken es).run ids).1.map (·.id)).Nodup
      ∧ ∀ id ∈ ((identifyEdges taken es).run ids).1.map (·.id), id ≠ "" ∧ id ∉ taken := by
  induction es generalizing taken ids with
  | nil => exact ⟨List.nodup_nil, fun id mem => absurd mem List.not_mem_nil⟩
  | cons e es ih =>
    obtain ⟨first, rest⟩ := List.forall_mem_cons.1 asked
    obtain ⟨later, nonempty, new, kept⟩ := edgeName_spec distinct spared first
    rw [run_identifyEdges_cons]
    dsimp only
    generalize (edgeName taken e).run ids = name at later nonempty new kept ⊢
    have known : ∀ id ∈ taken ++ [name.1], name.2.Spares id := by
      intro id mem
      rcases List.mem_append.1 mem with old | last
      · exact later.spares (spared id old)
      · rwa [List.mem_singleton.1 last]
    obtain ⟨nodup, others⟩ :=
      ih (later.distinct distinct) known fun e mem => later.spares (rest e mem)
    rw [List.map_cons, List.nodup_cons, List.forall_mem_cons]
    refine ⟨⟨fun again => ?_, nodup⟩, ⟨nonempty, new⟩, fun id mem => ?_⟩
    · exact (others _ again).2 (List.mem_append_right _ List.mem_cons_self)
    · exact ⟨(others id mem).1, fun old => (others id mem).2 (List.mem_append_left _ old)⟩

/-! ## Workflows -/

/-- The workflow of a document with nodes, under whatever new identifier. -/
def ofItems (d : Document) (fallback id : String) (edges : List Edge) : Workflow :=
  let row := d.fields
  { id
    name := ((Fields.getD row "name").trimmed?).getD fallback
    status := ((Fields.getD row "status").nameIn WorkflowStatus.named?).getD .draft
    version := restoreVersion (Fields.getD row "version")
    nodes := restoreNodes 0 [] (Fields.getD row "nodes").items
    edges
    settings := (Fields.getD row "settings").fields
    runtimeMap := (Fields.getEither row "runtimeMap" "runtime_map").fields }

theorem run_restore_of_items (nonempty : (Fields.getD d.fields "nodes").items ≠ []) (fallback : String)
    (ids : IdSource) :
    ∃ id, id ≠ "" ∧ ((restore d fallback).run ids).1
      = underId (Fields.getD d.fields "id") (ofItems d fallback id
          ((identifyEdges [] (restoreEdges (restoreNodes 0 [] (Fields.getD d.fields "nodes").items)
            (Fields.getD d.fields "edges").items)).run ids).1) := by
  unfold restore
  dsimp only
  split
  · next void => exact absurd void nonempty
  · exact ⟨_, Text.append_ne_empty_left (by decide) _, rfl⟩

theorem run_restore_of_no_items {fallback : String}
    (void : (Fields.getD d.fields "nodes").items = []) (ids : IdSource) :
    ((restore d fallback).run ids).1
      = underId (Fields.getD d.fields "id") ((Template.starter.create
          (some (((Fields.getD d.fields "name").trimmed?).getD fallback))).run ids).1 := by
  unfold restore
  dsimp only
  rw [void]
  rfl

theorem nodes_underId (d : Document) (w : Workflow) : (underId d w).nodes = w.nodes := by
  unfold underId
  split <;> rfl

/-- A block as it comes with the starter. -/
def starterNode (kind : NodeKind) (suffix : String) (position : Position) : Node :=
  { id := kind.name ++ "_" ++ suffix, title := kind.block.label, position, config := kind.standardConfig }

theorem starter_eq (name : String) (ids : IdSource) :
    ((Template.starter.create (some name)).run ids).1 =
      let t := starterNode .trigger (ids.suffix ids.used) ⟨360.0, 80.0⟩
      let x := starterNode .exit (ids.suffix (ids.used + 1)) ⟨360.0, 240.0⟩
      { id := "wf_" ++ ids.suffix (ids.used + 2), name, nodes := [t, x]
        edges := [{ id := "edge_" ++ t.id ++ "_" ++ x.id, source := t.id, target := x.id,
                    sourceHandle := some "out", targetHandle := some "in" }]
        settings := Template.grid } := by
  rfl

/-- Nodes that can be told apart under proper identifiers, edges that can be told apart between them,
and nothing of older schemas: conditions have canonical handles, and no edge leaves one on an older
handle. -/
structure Intact (w : Workflow) : Prop where
  nonempty : w.nodes ≠ []
  named : ∀ id ∈ w.nodeIds, Trimmed id ∧ id ≠ ""
  nodeIds : w.nodeIds.Nodup
  edgesNamed : "" ∉ w.edgeIds
  edgeIds : w.edgeIds.Nodup
  ends : ∀ e ∈ w.edges, e.source ∈ w.nodeIds ∧ e.target ∈ w.nodeIds
  canonical : ∀ n ∈ w.nodes, ∀ c, n.config = .condition c → Handle.Canonical (c.clauses.map (·.id))
  current : ∀ e ∈ w.edges, ∀ n ∈ w.nodes, n.id = e.source → n.isA .condition = true →
    (e.sourceHandle ≠ some "yes" ∧ e.sourceHandle ≠ some "no")
      ∧ e.data.branch ≠ some "yes" ∧ e.data.branch ≠ some "no"
  version : 1 ≤ w.version

/-- All places are finite. -/
def Placed (w : Workflow) : Prop :=
  ∀ n ∈ w.nodes, Decimal.isFinite n.position.x = true ∧ Decimal.isFinite n.position.y = true

theorem Intact.underId {w : Workflow} (h : w.Intact) (d : Document) : (underId d w).Intact := by
  unfold Workflow.underId
  split
  · exact h
  · exact ⟨h.nonempty, h.named, h.nodeIds, h.edgesNamed, h.edgeIds, h.ends, h.canonical, h.current,
      h.version⟩

theorem problems_underId (d : Document) (w : Workflow) : (underId d w).problems = w.problems := by
  unfold underId
  split <;> rfl

theorem edges_underId (d : Document) (w : Workflow) : (underId d w).edges = w.edges := by
  unfold underId
  split <;> rfl

theorem one_le_restoreVersion (d : Document) : 1 ≤ restoreVersion d := by
  unfold restoreVersion
  dsimp only
  split
  · assumption
  · decide

/-! ## The starter -/

theorem trimmed_starterNode (kind : NodeKind) {suffix : String}
    (plain : ∀ c ∈ suffix.toList, Text.isBlank c = false) :
    Trimmed (kind.name ++ "_" ++ suffix) := by
  have name : (kind.name ++ "_").toList.all (fun c => !Text.isBlank c) = true := by
    cases kind <;> decide +kernel
  refine Text.trimmed_of_no_blank fun c mem => ?_
  rw [String.toList_append, List.mem_append] at mem
  rcases mem with stem | last
  · simpa using List.all_eq_true.1 name c stem
  · exact plain c last

variable {t x : Node}

theorem offers_of_trigger {c : Config} (trigger : c.kind = .trigger) (door : String) : c.Offers door := by
  cases c with
  | trigger c => trivial
  | _ => cases trigger

/-- A trigger joined to an exit is a valid workflow. -/
theorem problems_of_joined {w : Workflow} (nodes : w.nodes = [t, x]) (edges : w.edges = [e])
    (trigger : t.kind = .trigger) (exit : x.kind = .exit) (apart : t.id ≠ x.id)
    (source : e.source = t.id) (target : e.target = x.id) : w.problems = [] := by
  have distinct : (w.nodes.map (·.id)).Nodup := by simpa [nodes] using apart
  have at? {n : Node} (mem : n ∈ w.nodes) : settings? w.nodes n.id = some n.config :=
    (settings?_eq_some_iff distinct).2 ⟨n, mem, rfl, rfl⟩
  have first := at? (n := t) (by simp [nodes])
  have second := at? (n := x) (by simp [nodes])
  refine (problems_eq_nil_iff w).2 ⟨?_, distinct, ?_⟩
  · simp [nodes, Node.isA, trigger, exit]
  · rw [edges, ← List.nil_append [e], sound_concat_iff]
    refine ⟨sound_nil, ?_, by simp, fun leads => ?_⟩
    · rw [Edge.fits_iff (source ▸ first) (target ▸ second)]
      refine ⟨fun same => ?_, fun same => ?_, ?_, ?_⟩
      · exact absurd (trigger.symm.trans same) (by decide)
      · exact absurd (exit.symm.trans same) (by decide)
      · rwa [source, target]
      · exact offers_of_trigger trigger _
    · have closed (f : Edge) (mem : f ∈ []) : f.source = e.target → f ∈ [] ∧ f.target = e.target :=
        absurd mem List.not_mem_nil
      have same := (leads.within (· = e.target) closed rfl).2
      rw [source, target] at same
      exact apart same

theorem intact_of_joined {w : Workflow} (nodes : w.nodes = [t, x]) (edges : w.edges = [e])
    (trigger : t.kind = .trigger) (exit : x.kind = .exit) (first : Trimmed t.id ∧ t.id ≠ "")
    (second : Trimmed x.id ∧ x.id ≠ "") (apart : t.id ≠ x.id) (source : e.source = t.id)
    (target : e.target = x.id) (named : e.id ≠ "") (version : 1 ≤ w.version) : w.Intact where
  nonempty := by simp [nodes]
  named := by simp [nodeIds, nodes, first, second]
  nodeIds := by simpa [nodeIds, nodes] using apart
  edgesNamed := by simpa [edgeIds, edges] using named.symm
  edgeIds := by simp [edgeIds, edges]
  ends := by simp [nodeIds, nodes, edges, source, target]
  canonical := by
    intro n mem c config
    have kind : n.kind = .condition := congrArg Config.kind config
    rw [nodes, List.mem_cons, List.mem_singleton] at mem
    rcases mem with rfl | rfl
    · exact absurd (trigger.symm.trans kind) (by decide)
    · exact absurd (exit.symm.trans kind) (by decide)
  current := by
    intro e _ n mem _ condition
    have kind : n.kind = .condition := by simpa [Node.isA] using condition
    rw [nodes, List.mem_cons, List.mem_singleton] at mem
    rcases mem with rfl | rfl
    · exact absurd (trigger.symm.trans kind) (by decide)
    · exact absurd (exit.symm.trans kind) (by decide)
  version := version

/-- The starter is a trigger joined to an exit. -/
theorem intact_starter (plain : ids.Plain) (name : String) :
    ((Template.starter.create (some name)).run ids).1.Intact
      ∧ ((Template.starter.create (some name)).run ids).1.Placed
      ∧ ∃ t x e, ((Template.starter.create (some name)).run ids).1.nodes = [t, x]
          ∧ t.kind = .trigger ∧ x.kind = .exit
          ∧ ((Template.starter.create (some name)).run ids).1.edges = [e]
          ∧ e.source = t.id ∧ e.target = x.id
          ∧ ((Template.starter.create (some name)).run ids).1.problems = [] := by
  have first := trimmed_starterNode .trigger (plain ids.used)
  have second := trimmed_starterNode .exit (plain (ids.used + 1))
  have apart : NodeKind.name .trigger ++ "_" ++ ids.suffix ids.used
      ≠ NodeKind.name .exit ++ "_" ++ ids.suffix (ids.used + 1) := by
    intro same
    have chars := congrArg String.toList same
    simp [NodeKind.name] at chars
  rw [starter_eq]
  refine ⟨?_, ?_, ?_⟩
  · refine intact_of_joined rfl rfl rfl rfl ⟨first, joined_ne_empty _ _⟩ ⟨second, joined_ne_empty _ _⟩
      apart rfl rfl ?_ (Int.le_refl 1)
    exact joined_ne_empty _ _
  · have column : Decimal.isFinite 360.0 = true := by decide +kernel
    have top : Decimal.isFinite 80.0 = true := by decide +kernel
    have bottom : Decimal.isFinite 240.0 = true := by decide +kernel
    intro n mem
    rw [List.mem_cons, List.mem_singleton] at mem
    rcases mem with rfl | rfl
    · exact ⟨column, top⟩
    · exact ⟨column, bottom⟩
  · exact ⟨_, _, _, rfl, rfl, rfl, rfl, rfl, rfl, problems_of_joined rfl rfl rfl rfl apart rfl rfl⟩

/-! ## Documents with nodes -/

theorem mem_of_forall₂ {α β : Type} {r : α → β → Prop} {as : List α} {bs : List β}
    (h : List.Forall₂ r as bs) {b : β} (mem : b ∈ bs) : ∃ a ∈ as, r a b := by
  induction h with
  | nil => cases mem
  | cons head _ ih =>
    rcases List.mem_cons.1 mem with rfl | later
    · exact ⟨_, List.mem_cons_self, head⟩
    · obtain ⟨a, there, related⟩ := ih later
      exact ⟨a, List.mem_cons_of_mem _ there, related⟩

/-- What is said of an edge apart from its identifier is said of a restored one. -/
theorem mem_identifyEdges (h : e ∈ ((identifyEdges taken es).run ids).1) :
    ∃ f ∈ es, unnamed f = unnamed e := by
  have mem := List.mem_map_of_mem (f := unnamed) h
  rw [map_unnamed_identifyEdges] at mem
  exact List.mem_map.1 mem

theorem comesFrom_of_mem {items : List Document} (mem : n ∈ restoreNodes 0 [] items) :
    ∃ item ∈ items, ComesFrom items.length item n := by
  have each := forall₂_restoreNodes 0 [] items
  rw [Nat.zero_add] at each
  exact mem_of_forall₂ each mem

theorem intact_ofItems (nonempty : (Fields.getD d.fields "nodes").items ≠ []) (fallback id : String)
    (distinct : ids.Distinct)
    (spared : ∀ item ∈ (Fields.getD d.fields "edges").items,
      ids.Spares (Fields.getD item.fields "id").trimmed) :
    (ofItems d fallback id ((identifyEdges [] (restoreEdges
      (restoreNodes 0 [] (Fields.getD d.fields "nodes").items)
      (Fields.getD d.fields "edges").items)).run ids).1).Intact := by
  have asked : ∀ e ∈ restoreEdges (restoreNodes 0 [] (Fields.getD d.fields "nodes").items)
      (Fields.getD d.fields "edges").items, ids.Spares e.id := by
    intro e mem
    obtain ⟨item, there, _, _, _, _, rfl⟩ := mem_restoreEdges mem
    exact spared item there
  have spares : ∀ id ∈ [], ids.Spares id := fun _ mem => absurd mem List.not_mem_nil
  obtain ⟨nodup, others⟩ := identifyEdges_spec distinct spares asked
  have distinctNodes := nodup_ids_restoreNodes 0 [] (Fields.getD d.fields "nodes").items
  refine ⟨fun void => nonempty ?_, ?_, distinctNodes, fun mem => (others "" mem).1 rfl, nodup, ?_, ?_,
    ?_, one_le_restoreVersion _⟩
  · have length := congrArg List.length void
    simpa [ofItems] using length
  · intro id mem
    obtain ⟨n, there, rfl⟩ := List.mem_map.1 mem
    obtain ⟨item, -, comes⟩ := comesFrom_of_mem there
    exact comes.trimmed
  · intro e mem
    obtain ⟨f, there, same⟩ := mem_identifyEdges mem
    obtain ⟨item, -, source, memSource, -, target, rfl⟩ := mem_restoreEdges there
    have sources : source.id = e.source := congrArg Edge.source same
    have targets : (Fields.getD item.fields "target").trimmed = e.target := congrArg Edge.target same
    exact ⟨sources ▸ List.mem_map_of_mem memSource, targets ▸ target⟩
  · intro n mem c config
    obtain ⟨item, -, comes⟩ := comesFrom_of_mem mem
    exact comes.canonical config
  · intro e mem n there leaves condition
    obtain ⟨f, mem, same⟩ := mem_identifyEdges mem
    obtain ⟨item, -, source, memSource, -, -, rfl⟩ := mem_restoreEdges mem
    have sources : source.id = e.source := congrArg Edge.source same
    -- the node that the edge leaves is the one that it was restored from
    obtain rfl : source = n :=
      List.inj_on_of_nodup_map distinctNodes memSource there (sources.trans leaves.symm)
    have handle := congrArg Edge.sourceHandle same
    have branch := congrArg (fun e => e.data.branch) same
    simp only [unnamed, restoreEdge, restoreData, condition, if_true] at handle branch
    rw [← handle, ← branch]
    exact ⟨map_currentHandle_ne _, map_currentHandle_ne _⟩

/-- What is restored of a document: a workflow that is intact, and nothing is lost that can be kept.  Each
item of the node list has its node, and each item of the edge list whose two ends are nodes its edge; without
nodes a trigger joined to an exit is restored.  A list has no more items than a word can count. -/
structure RestoredFrom (d : Document) (w : Workflow) : Prop where
  intact : w.Intact
  placed : (Fields.getD d.fields "nodes").items.length ≤ 2 ^ 63 → w.Placed
  nodes : (Fields.getD d.fields "nodes").items ≠ [] →
    List.Forall₂ Keeps (Fields.getD d.fields "nodes").items w.nodes
  edges : (Fields.getD d.fields "nodes").items ≠ [] →
    w.edges.map ends = ((Fields.getD d.fields "edges").items.map statedEnds).filter
      fun p => w.nodeIds.contains p.1 && w.nodeIds.contains p.2
  starter : (Fields.getD d.fields "nodes").items = [] →
    ∃ t x e, w.nodes = [t, x] ∧ t.kind = .trigger ∧ x.kind = .exit
      ∧ w.edges = [e] ∧ e.source = t.id ∧ e.target = x.id ∧ w.problems = []

theorem restoredFrom_restore (d : Document) (fallback : String) (distinct : ids.Distinct) (plain : ids.Plain)
    (spared : ∀ item ∈ (Fields.getD d.fields "edges").items,
      ids.Spares (Fields.getD item.fields "id").trimmed) :
    RestoredFrom d ((restore d fallback).run ids).1 := by
  by_cases void : (Fields.getD d.fields "nodes").items = []
  · obtain ⟨intact, placed, joined⟩ :=
      intact_starter plain (((Fields.getD d.fields "name").trimmed?).getD fallback)
    rw [run_restore_of_no_items void]
    refine ⟨intact.underId _, fun _ => ?_, (absurd void ·), (absurd void ·), fun _ => ?_⟩
    · rwa [Placed, nodes_underId]
    · rwa [nodes_underId, edges_underId, problems_underId]
  · obtain ⟨id, -, same⟩ := run_restore_of_items void fallback ids
    rw [same]
    refine ⟨(intact_ofItems void fallback id distinct spared).underId _, fun range => ?_, fun _ => ?_,
      fun _ => ?_, (absurd · void)⟩
    · rw [Placed, nodes_underId]
      intro n mem
      obtain ⟨item, -, comes⟩ := comesFrom_of_mem mem
      exact comes.isFinite range
    · rw [nodes_underId]
      exact (forall₂_restoreNodes 0 [] _).imp fun _ _ comes => comes.keeps
    · have bare := congrArg (List.map ends) (map_unnamed_identifyEdges []
        (restoreEdges (restoreNodes 0 [] (Fields.getD d.fields "nodes").items)
          (Fields.getD d.fields "edges").items) ids)
      rw [List.map_map, List.map_map] at bare
      rw [nodeIds, nodes_underId, edges_underId]
      exact bare.trans (map_ends_restoreEdges _ _)

/-- Exactly the documents that can be read are restored, and whatever is stored in one, what is restored is
intact and nothing is lost that can be kept.  The identifiers that are drawn have to be new. -/
theorem restoredFrom_tryRestore (d : Document) (fallback : String) (distinct : ids.Distinct)
    (plain : ids.Plain) (spared : ∀ item ∈ (Fields.getD d.fields "edges").items,
      ids.Spares (Fields.getD item.fields "id").trimmed) :
    ((∃ m, tryRestore d fallback = .ok m) ↔ Readable d)
      ∧ ∀ m, tryRestore d fallback = .ok m → RestoredFrom d (m.run ids).1 := by
  refine ⟨exists_tryRestore_iff, fun m restored => ?_⟩
  rw [← (tryRestore_eq_ok_iff.1 restored).2]
  exact restoredFrom_restore d fallback distinct plain spared

/-- Three items, the second of which asks for the identifier of the first, and three edges, the last of
which leads nowhere. -/
def damaged : Document :=
  .object
    [("nodes", .list
      [.object [("id", .text " a "), ("kind", .text "Trigger")],
       .object [("id", .text "a"), ("kind", .text "condition")], .int 7]),
     ("edges", .list
      [.object [("id", .text "e"), ("source", .text "a"), ("target", .text "a_2")],
       .object [("id", .text "e"), ("source", .text "a_2"), ("target", .text "node_3 "),
         ("sourceHandle", .text "yes")],
       .object [("source", .text "a"), ("target", .text "b")]])]

theorem restoredFrom_tryRestore_damaged :
    ∃ m, tryRestore damaged = .ok m
      ∧ let w := (m.run .strokes).1
        RestoredFrom damaged w ∧ w.nodeIds = ["a", "a_2", "node_3"]
          ∧ w.edges.map ends = [("a", "a_2"), ("a_2", "node_3")]
          ∧ w.edges.map (·.sourceHandle) = [none, some "if"] := by
  have unmarked : ∀ item ∈ (Fields.getD damaged.fields "edges").items,
      '#' ∉ (Fields.getD item.fields "id").trimmed.toList := by decide +kernel
  obtain ⟨reads, restored⟩ := restoredFrom_tryRestore damaged untitled IdSource.distinct_strokes
    IdSource.plain_strokes fun item mem => IdSource.spares_strokes (unmarked item mem)
  obtain ⟨m, ok⟩ := reads.2 (by decide +kernel)
  refine ⟨m, ok, restored m ok, ?_⟩
  rw [← (tryRestore_eq_ok_iff.1 ok).2]
  decide +kernel

/-- Of a document that cannot be read there is no workflow, intact or not. -/
theorem not_restoredFrom_unreadable :
    ¬ ∃ m, tryRestore unreadable = .ok m ∧ RestoredFrom unreadable (m.run .strokes).1 := by
  rintro ⟨m, restored, -⟩
  exact not_readable_unreadable (exists_tryRestore_iff.1 ⟨m, restored⟩)

end Workflow

end Journey
