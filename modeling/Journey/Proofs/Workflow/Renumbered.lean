import Journey.Proofs.Workflow.Restored

/-!
# Journey.Proofs.Workflow.Renumbered -- who gets an identifier that one item states

Missing identifiers of nodes are made up and repeated ones are numbered on, item after item.  Each is new
among those given before it (`freeId_eq_iff`), but nothing is asked of the items still to come.  So an
identifier that one item alone states is given to the node of that item unless a repair further up has
made the same text, by number, for another one (`Repaired`); then the later node is numbered on instead.

Edges name their ends, and names are looked up when all nodes have theirs.  An edge that names a stated
identifier therefore follows the identifier, wherever the repairs have put it.  Main statement:
`heldBy_restore`; `not_heldBy_restore_overtaken` is an exit that loses its identifier, and the edge that
leads to it, to a pause.
-/

namespace Journey

set_option autoImplicit false

namespace Workflow

variable {taken : List String} {asked id : String} {position i : Nat} {d : Document}

/-! ## Numbering on -/

/-- An identifier is the first one with a number from two on that is not taken. -/
structure NumberedOn (taken : List String) (asked id : String) (k : Nat) : Prop where
  two_le : 2 ≤ k
  same : id = numbered asked k
  free : id ∉ taken
  least : ∀ m, 2 ≤ m → m < k → numbered asked m ∈ taken

theorem numberedOn_freeNumber (taken : List String) (asked : String) :
    NumberedOn taken asked (numbered asked (Text.freeNumber (numbered asked) 2 taken))
      (Text.freeNumber (numbered asked) 2 taken) where
  two_le := Text.le_freeNumber (numbered_inj asked)
  same := rfl
  free := Text.not_mem_freeNumber (numbered_inj asked)
  least := fun _ above below => Text.mem_of_lt_freeNumber (numbered_inj asked) above below

theorem NumberedOn.eq_freeNumber {k : Nat} (h : NumberedOn taken asked id k) :
    k = Text.freeNumber (numbered asked) 2 taken := by
  have first := numberedOn_freeNumber taken asked
  rcases Nat.lt_trichotomy k (Text.freeNumber (numbered asked) 2 taken) with below | same | above
  · exact absurd (first.least k h.two_le below) (h.same ▸ h.free)
  · exact same
  · exact absurd (h.least _ first.two_le above) first.free

/-- What is asked for is given if it is free, and is numbered on otherwise. -/
theorem freeId_eq_iff :
    freeId taken asked = id
      ↔ (asked ∉ taken ∧ id = asked) ∨ (asked ∈ taken ∧ ∃ k, NumberedOn taken asked id k) := by
  unfold freeId
  by_cases there : asked ∈ taken
  · rw [if_pos (by simpa using there)]
    constructor
    · rintro rfl
      exact .inr ⟨there, _, numberedOn_freeNumber taken asked⟩
    · rintro (⟨free, -⟩ | ⟨-, k, on⟩)
      · exact absurd there free
      · rw [← on.eq_freeNumber, on.same]
  · rw [if_neg (by simpa using there)]
    constructor
    · rintro rfl
      exact .inl ⟨there, rfl⟩
    · rintro (⟨-, same⟩ | ⟨mem, -⟩)
      · exact same.symm
      · exact absurd mem there

/-! ## What an item states and what it is given -/

/-- The identifier that an item states. -/
def statedId? (d : Document) : Option String := (Fields.getD d.fields "id").trimmed?

/-- The item at the position states the identifier, and no other item does. -/
def StatedOnce (items : List Document) (i : Nat) (id : String) : Prop :=
  ∀ j, items[j]?.bind statedId? = some id ↔ j = i

/-- The identifier is not stated by the item at the position but comes from its repair: it is made up
because none is stated, or numbered on because the one that is asked for is taken. -/
inductive Repaired (position : Nat) (taken : List String) (d : Document) (id : String) : Prop
  | madeUp (unstated : statedId? d = none) (same : id = numbered "node" (position + 1)) (free : id ∉ taken)
  | numberedOn (k : Nat) (again : askedId position d.fields ∈ taken)
      (on : NumberedOn taken (askedId position d.fields) id k)

theorem askedId_of_stated (stated : statedId? d = some id) : askedId position d.fields = id := by
  rw [statedId?] at stated
  rw [askedId, stated, Option.getD_some]

theorem askedId_of_unstated (unstated : statedId? d = none) :
    askedId position d.fields = numbered "node" (position + 1) := by
  rw [statedId?] at unstated
  rw [askedId, unstated, Option.getD_none]
  rfl

/-- A repair is exactly what gives an identifier that is not stated. -/
theorem repaired_iff :
    Repaired position taken d id
      ↔ freeId taken (askedId position d.fields) = id ∧ statedId? d ≠ some id := by
  rw [freeId_eq_iff]
  constructor
  · rintro (⟨unstated, same, free⟩ | ⟨k, again, on⟩)
    · have asked : askedId position d.fields = _ := askedId_of_unstated unstated
      rw [unstated, asked]
      exact ⟨.inl ⟨same ▸ free, same⟩, by simp⟩
    · refine ⟨.inr ⟨again, k, on⟩, fun stated => on.free ?_⟩
      rwa [askedId_of_stated stated] at again
  · rintro ⟨⟨free, same⟩ | ⟨again, k, on⟩, other⟩
    · cases stated : statedId? d with
      | none => exact .madeUp stated (same.trans (askedId_of_unstated stated)) (same ▸ free)
      | some s =>
        rw [askedId_of_stated stated] at same
        exact absurd (same ▸ stated) other
    · exact .numberedOn k again on

/-- All that comes from a repair ends in a number. -/
theorem Repaired.eq_numbered (h : Repaired position taken d id) : ∃ base k, id = numbered base k := by
  cases h with
  | madeUp _ same _ => exact ⟨_, _, same⟩
  | numberedOn k _ on => exact ⟨_, k, on.same⟩

/-! ## Positions -/

/-- The identifiers that the nodes of the items get. -/
def givenIds (position : Nat) (taken : List String) (ds : List Document) : List String :=
  (restoreNodes position taken ds).map (·.id)

theorem givenIds_cons (position : Nat) (taken : List String) (d : Document) (ds : List Document) :
    givenIds position taken (d :: ds)
      = freeId taken (askedId position d.fields)
        :: givenIds (position + 1) (taken ++ [freeId taken (askedId position d.fields)]) ds := rfl

/-- Each item is restored under the identifier that is free beside those of the items before it. -/
theorem getElem?_restoreNodes (position : Nat) (taken : List String) (ds : List Document) (i : Nat) :
    (restoreNodes position taken ds)[i]?
      = ds[i]?.map fun d => restoreNode (position + i)
          (freeId (taken ++ (givenIds position taken ds).take i) (askedId (position + i) d.fields)) d := by
  induction ds generalizing position taken i with
  | nil => rfl
  | cons d ds ih =>
    cases i with
    | zero => simp [restoreNodes]
    | succ i =>
      rw [givenIds_cons, List.take_succ_cons, List.append_cons]
      simp only [restoreNodes, List.getElem?_cons_succ]
      rw [ih, Nat.add_right_comm, Nat.add_assoc position i 1]

variable {items : List Document}

theorem getElem?_givenIds (items : List Document) (i : Nat) :
    (givenIds 0 [] items)[i]?
      = items[i]?.map fun d => freeId ((givenIds 0 [] items).take i) (askedId i d.fields) := by
  rw [givenIds, List.getElem?_map, getElem?_restoreNodes, Option.map_map, Nat.zero_add, List.nil_append]
  rfl

/-- Among the first nodes, the one at a position is the only one that has its identifier. -/
theorem not_mem_take_givenIds {j : Nat} (granted : (givenIds 0 [] items)[j]? = some id) :
    id ∉ (givenIds 0 [] items).take j := by
  rw [getElem?_givenIds, Option.map_eq_some_iff] at granted
  obtain ⟨d, -, rfl⟩ := granted
  exact freeId_not_mem _ _

/-- Only the positions of items have to be looked at. -/
theorem statedOnce_iff :
    StatedOnce items i id ↔ items[i]?.bind statedId? = some id
      ∧ ∀ j < items.length, items[j]?.bind statedId? = some id → j = i := by
  refine ⟨fun once => ⟨(once i).2 rfl, fun j _ stated => (once j).1 stated⟩, ?_⟩
  rintro ⟨own, others⟩ j
  refine ⟨fun stated => others j ?_ stated, fun same => same ▸ own⟩
  obtain ⟨d, there, -⟩ := Option.bind_eq_some_iff.1 stated
  exact (List.getElem?_eq_some_iff.1 there).1

instance : Decidable (StatedOnce items i id) := decidable_of_iff' _ statedOnce_iff

theorem StatedOnce.item (once : StatedOnce items i id) : ∃ d, items[i]? = some d ∧ statedId? d = some id :=
  Option.bind_eq_some_iff.1 ((once i).2 rfl)

theorem StatedOnce.not_stated (once : StatedOnce items i id) {j : Nat} (other : j ≠ i)
    (granted : items[j]? = some d) : statedId? d ≠ some id := by
  intro stated
  have there : items[j]?.bind statedId? = some id := by rw [granted, Option.bind_some, stated]
  exact other ((once j).1 there)

/-- Another node that has the identifier has it from a repair. -/
theorem StatedOnce.repaired (once : StatedOnce items i id) {j : Nat} (other : j ≠ i)
    (granted : (givenIds 0 [] items)[j]? = some id) :
    ∃ d, items[j]? = some d ∧ Repaired j ((givenIds 0 [] items).take j) d id := by
  rw [getElem?_givenIds, Option.map_eq_some_iff] at granted
  obtain ⟨d, there, given⟩ := granted
  exact ⟨d, there, repaired_iff.2 ⟨given, once.not_stated other there⟩⟩

/-- The item has the identifier that it alone states, or that of another number if it is taken. -/
theorem StatedOnce.given (once : StatedOnce items i id) :
    (id ∉ (givenIds 0 [] items).take i ∧ (givenIds 0 [] items)[i]? = some id)
      ∨ (id ∈ (givenIds 0 [] items).take i
          ∧ ∃ k own, NumberedOn ((givenIds 0 [] items).take i) id own k
              ∧ (givenIds 0 [] items)[i]? = some own) := by
  obtain ⟨d, there, stated⟩ := once.item
  have own := getElem?_givenIds items i
  rw [there, Option.map_some, askedId_of_stated stated] at own
  rcases freeId_eq_iff.1 (rfl : freeId ((givenIds 0 [] items).take i) id = _) with
    ⟨free, same⟩ | ⟨mem, k, on⟩
  · exact .inl ⟨free, same ▸ own⟩
  · exact .inr ⟨mem, k, _, on, own⟩

/-! ## Who has the identifier -/

/-- Of all nodes, that of the item at position `j` has the identifier that the item at position `i` alone
states, and all edges that name the identifier are attached to it. -/
structure HeldBy (items edgeItems : List Document) (w : Workflow) (i : Nat) (id : String) (j : Nat)
    (d : Document) : Prop where
  item : items[j]? = some d
  /-- The node is made from the item, under the identifier. -/
  node : w.nodes[j]? = some (restoreNode j id d)
  /-- Where an edge names the identifier, the node is the one that is found. -/
  found : w.node? id = some (restoreNode j id d)
  /-- No edge is dropped or led elsewhere on account of a repair: exactly the items whose two ends name
  nodes give edges, between the ends that they name. -/
  edges : w.edges.map ends
    = (edgeItems.map statedEnds).filter fun p => w.nodeIds.contains p.1 && w.nodeIds.contains p.2
  /-- Another item than the one that states the identifier comes before it, and was repaired. -/
  repaired : j ≠ i → j < i ∧ Repaired j (w.nodeIds.take j) d id
  /-- The item that states the identifier then has another number. -/
  displaced : j ≠ i → ∃ k own, NumberedOn (w.nodeIds.take i) id own k ∧ w.nodeIds[i]? = some own

theorem exists_heldBy {edgeItems : List Document} {w : Workflow} (once : StatedOnce items i id)
    (nodes : w.nodes = restoreNodes 0 [] items)
    (edges : w.edges.map ends
      = (edgeItems.map statedEnds).filter fun p => w.nodeIds.contains p.1 && w.nodeIds.contains p.2) :
    ∃ j d, HeldBy items edgeItems w i id j d := by
  have ids : w.nodeIds = givenIds 0 [] items := by rw [nodeIds, nodes, givenIds]
  have distinct : w.nodeIds.Nodup := ids ▸ nodup_ids_restoreNodes 0 [] items
  -- the node at a position that has the identifier is the one that is looked up
  have holds {j : Nat} (granted : (givenIds 0 [] items)[j]? = some id) :
      ∃ d, items[j]? = some d ∧ w.nodes[j]? = some (restoreNode j id d)
        ∧ w.node? id = some (restoreNode j id d) := by
    have given := granted
    rw [getElem?_givenIds, Option.map_eq_some_iff] at given
    obtain ⟨d, there, named⟩ := given
    have node : w.nodes[j]? = some (restoreNode j id d) := by
      rw [nodes, getElem?_restoreNodes, there, Option.map_some, Nat.zero_add, List.nil_append, named]
    exact ⟨d, there, node, node?_of_mem distinct (List.mem_of_getElem? node)⟩
  rcases once.given with ⟨-, own⟩ | ⟨mem, k, own, on, atOwn⟩
  · obtain ⟨d, there, node, found⟩ := holds own
    exact ⟨i, d, there, node, found, edges, fun other => absurd rfl other, fun other => absurd rfl other⟩
  · obtain ⟨j, below, granted⟩ := List.mem_take_iff_getElem.1 mem
    have granted : (givenIds 0 [] items)[j]? = some id := by
      rw [List.getElem?_eq_getElem (by omega), granted]
    have before : j < i := by omega
    obtain ⟨d, there, node, found⟩ := holds granted
    obtain ⟨_, same, repaired⟩ := once.repaired (Nat.ne_of_lt before) granted
    obtain rfl := Option.some.inj (there.symm.trans same)
    rw [← ids] at repaired on atOwn
    exact ⟨j, d, there, node, found, edges, fun _ => ⟨before, repaired⟩, fun _ => ⟨k, own, on, atOwn⟩⟩

/-- The item that states the identifier has it unless an item before it is repaired to it. -/
theorem HeldBy.eq_iff {edgeItems : List Document} {w : Workflow} {j : Nat}
    (h : HeldBy items edgeItems w i id j d) (ids : w.nodeIds = givenIds 0 [] items) :
    j = i ↔ ∀ k < i, ∀ d, items[k]? = some d → ¬ Repaired k (w.nodeIds.take k) d id := by
  constructor
  · rintro rfl k before d there repaired
    rw [ids] at repaired
    have granted : (givenIds 0 [] items)[k]? = some id := by
      rw [getElem?_givenIds, there, Option.map_some, (repaired_iff.1 repaired).1]
    have own : (givenIds 0 [] items)[j]? = some id := by
      rw [← ids, nodeIds, List.getElem?_map, h.node]
      rfl
    refine not_mem_take_givenIds own (List.mem_of_getElem? (i := k) ?_)
    rw [List.getElem?_take_of_lt before, granted]
  · intro unrepaired
    by_contra other
    obtain ⟨before, repaired⟩ := h.repaired other
    exact unrepaired j before d h.item repaired

/-- The nodes are those of the items, and the edges those of the items that name nodes. -/
theorem restore_of_items (nonempty : (Fields.getD d.fields "nodes").items ≠ []) (fallback : String)
    (ids : IdSource) :
    let w := ((restore d fallback).run ids).1
    w.nodes = restoreNodes 0 [] (Fields.getD d.fields "nodes").items
      ∧ w.edges.map ends = ((Fields.getD d.fields "edges").items.map statedEnds).filter
          fun p => w.nodeIds.contains p.1 && w.nodeIds.contains p.2 := by
  intro w
  obtain ⟨name, -, same⟩ := run_restore_of_items nonempty fallback ids
  have same : w = _ := same
  have nodes : w.nodes = restoreNodes 0 [] (Fields.getD d.fields "nodes").items := by
    rw [same, nodes_underId]
    rfl
  have bare := congrArg (List.map ends) (map_unnamed_identifyEdges []
    (restoreEdges (restoreNodes 0 [] (Fields.getD d.fields "nodes").items)
      (Fields.getD d.fields "edges").items) ids)
  rw [List.map_map, List.map_map] at bare
  refine ⟨nodes, ?_⟩
  rw [nodeIds, nodes, same, edges_underId]
  exact bare.trans (map_ends_restoreEdges _ _)

/-- An identifier that one item alone states is found after the restoration, and all edges that name it
are attached to the node that has it.  That is the node of this item, unless an item before it, which
states another identifier or none, is repaired to the same text; an identifier that does not end in a
number is always kept. -/
theorem heldBy_restore (d : Document) (fallback : String) (ids : IdSource)
    (once : StatedOnce (Fields.getD d.fields "nodes").items i id) :
    let w := ((restore d fallback).run ids).1
    let items := (Fields.getD d.fields "nodes").items
    ∃ j item, HeldBy items (Fields.getD d.fields "edges").items w i id j item
      ∧ (j = i ↔ ∀ k < i, ∀ d, items[k]? = some d → ¬ Repaired k (w.nodeIds.take k) d id)
      ∧ ((∀ base k, id ≠ numbered base k) → j = i) := by
  intro w items
  have nonempty : items ≠ [] := by
    obtain ⟨_, there, -⟩ := once.item
    exact List.ne_nil_of_mem (List.mem_of_getElem? there)
  obtain ⟨nodes, edges⟩ := restore_of_items nonempty fallback ids
  obtain ⟨j, item, held⟩ := exists_heldBy once nodes edges
  have given : w.nodeIds = givenIds 0 [] items := by rw [nodeIds, nodes, givenIds]
  refine ⟨j, item, held, held.eq_iff given, fun plain => ?_⟩
  by_contra other
  obtain ⟨base, k, numbered⟩ := (held.repaired other).2.eq_numbered
  exact plain base k numbered

/-- A trigger that leads to a pause, and the pause to an exit; a second pause has the identifier of the
first. -/
def withExit (name : String) : Document :=
  .object
    [("nodes", .list
      [.object [("id", .text "t"), ("kind", .text "trigger")],
       .object [("id", .text "a"), ("kind", .text "wait")],
       .object [("id", .text "a"), ("kind", .text "wait")],
       .object [("id", .text name), ("kind", .text "exit")]]),
     ("edges", .list
      [.object [("id", .text "e1"), ("source", .text "t"), ("target", .text "a")],
       .object [("id", .text "e2"), ("source", .text "a"), ("target", .text name)]])]

theorem heldBy_restore_atEnd :
    let w := ((restore (withExit "z")).run .strokes).1
    StatedOnce (Fields.getD (withExit "z").fields "nodes").items 3 "z"
      ∧ w.nodeIds = ["t", "a", "a_2", "z"]
      ∧ (w.node? "z").map (·.kind) = some .exit
      ∧ w.edges.map ends = [("t", "a"), ("a", "z")] := by
  have once : StatedOnce (Fields.getD (withExit "z").fields "nodes").items 3 "z" := by decide +kernel
  have unnumbered (base : String) (k : Nat) : "z" ≠ numbered base k := by
    intro same
    have bar : '_' ∈ (numbered base k).toList := by simp [numbered]
    rw [← same] at bar
    exact absurd bar (by decide)
  obtain ⟨j, item, held, -, kept⟩ := heldBy_restore (withExit "z") untitled .strokes once
  obtain rfl := kept unnumbered
  refine ⟨once, by decide +kernel, ?_, by decide +kernel⟩
  rw [held.found]
  obtain rfl : _ = item := Option.some.inj held.item
  decide +kernel

/-- The second pause is numbered on to the identifier that the exit alone states: the exit gets another
one, and the edge that names it leads to the pause. -/
theorem not_heldBy_restore_overtaken :
    let w := ((restore (withExit "a_2")).run .strokes).1
    let items := (Fields.getD (withExit "a_2").fields "nodes").items
    StatedOnce items 3 "a_2"
      ∧ w.nodes.map (fun n => (n.id, n.kind))
          = [("t", .trigger), ("a", .wait), ("a_2", .wait), ("a_2_2", .exit)]
      ∧ w.edges.map ends = [("t", "a"), ("a", "a_2")]
      ∧ ¬ ∃ item, HeldBy items (Fields.getD (withExit "a_2").fields "edges").items w 3 "a_2" 3 item := by
  intro w items
  have names : w.nodeIds[3]? = some "a_2_2" := by decide +kernel
  refine ⟨by decide +kernel, by decide +kernel, by decide +kernel, fun ⟨item, held⟩ => ?_⟩
  rw [nodeIds, List.getElem?_map, held.node] at names
  have same : "a_2" = "a_2_2" := Option.some.inj names
  exact absurd same (by decide)

end Workflow

end Journey
