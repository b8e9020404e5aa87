import Journey.Proofs.Editor.Accepted
import Mathlib.Data.List.Forall2

/-!
# Journey.Proofs.Editor.Clipboard -- what is pasted is sound by itself

What is copied are some nodes of a well-formed workflow with all edges between them, so it is sound by
itself and stays so whatever becomes of the workflow (`Clip.settled_ofWorkflow`).  A paste renames it:
every node gets one new identifier, and edges lead between the new ones as they led between the old
(`Edge.renamed`).  Renaming keeps edges sound when it keeps nodes apart and their settings
(`Sound.rename`); that the new identifiers are different from each other and from all others is what
drawing them grants (`Clip.joins_copy`).
-/

namespace Journey

set_option autoImplicit false

/-! ## Renamed edges -/

/-- The ends and the door of an edge whose two ends are renamed. -/
def Edge.renamed (name? : String → Option String) (e : Edge) : Option Edge :=
  match name? e.source, name? e.target with
  | some source, some target => some { e.bare with source, target }
  | _, _ => none

variable {name? : String → Option String}

theorem Edge.renamed_eq_some_iff {e f : Edge} :
    e.renamed name? = some f ↔
      ∃ source target, name? e.source = some source ∧ name? e.target = some target
        ∧ { e.bare with source, target } = f := by
  unfold renamed
  constructor
  · intro h
    split at h
    · next source target foundSource foundTarget =>
      exact ⟨source, target, foundSource, foundTarget, Option.some.inj h⟩
    · cases h
  · rintro ⟨source, target, foundSource, foundTarget, rfl⟩
    rw [foundSource, foundTarget]

/-- Edges stay sound when nodes are renamed that keep apart and keep their settings. -/
theorem Workflow.Sound.rename {at? look? : String → Option Config} {edges : List Edge}
    (h : Sound at? edges) (apart : ∀ x y z, name? x = some z → name? y = some z → x = y)
    (settings : ∀ x z, name? x = some z → look? z = at? x) :
    Sound look? (edges.filterMap (Edge.renamed name?)) where
  fits := by
    intro f mem
    obtain ⟨e, memE, renamed⟩ := List.mem_filterMap.1 mem
    obtain ⟨source, target, foundSource, foundTarget, rfl⟩ := Edge.renamed_eq_some_iff.1 renamed
    obtain ⟨s, t, atSource, atTarget, noExit, noTrigger, noLoop, door⟩ := h.fits e memE
    refine ⟨s, t, ?_, ?_, noExit, noTrigger, fun same : source = target => noLoop ?_, door⟩
    · exact (settings _ _ foundSource).trans atSource
    · exact (settings _ _ foundTarget).trans atTarget
    · exact apart _ _ target (same ▸ foundSource) foundTarget
  apart := by
    rw [List.pairwise_filterMap]
    refine h.apart.imp fun {e f} away e' renamedE f' renamedF => ?_
    obtain ⟨s, t, sourceE, targetE, rfl⟩ := Edge.renamed_eq_some_iff.1 renamedE
    obtain ⟨s', t', sourceF, targetF, rfl⟩ := Edge.renamed_eq_some_iff.1 renamedF
    have sources (same : s = s') : e.source = f.source := apart _ _ s sourceE (same ▸ sourceF)
    have targets (same : t = t') : e.target = f.target := apart _ _ t targetE (same ▸ targetF)
    refine ⟨⟨fun source target => ?_, fun source door c found => ?_⟩, fun target c found => ?_⟩
    · exact away.connections (sources source) (targets target)
    · exact away.doors (sources source) door c ((settings _ _ sourceE).symm.trans found)
    · exact away.inputs (targets target) c ((settings _ _ targetE).symm.trans found)
  acyclic := by
    refine h.acyclic.rename (fun x z => name? x = some z) apart fun f mem => ?_
    obtain ⟨e, memE, renamed⟩ := List.mem_filterMap.1 mem
    obtain ⟨source, target, foundSource, foundTarget, rfl⟩ := Edge.renamed_eq_some_iff.1 renamed
    exact ⟨e, memE, foundSource, foundTarget⟩

namespace Clip

variable {ids : IdSource} {w : Workflow}

/-! ## Copying -/

/-- What is copied from a well-formed workflow is sound by itself. -/
theorem settled_ofWorkflow (h : w.WellFormed) (chosen : List String) :
    (ofWorkflow w chosen).Settled where
  nodeIds := h.nodeIds.sublist (List.filter_sublist.map _)
  sound := by
    have fewer : Workflow.Sound (Workflow.settings? w.nodes) (ofWorkflow w chosen).edges :=
      h.sound.sublist List.filter_sublist
    refine fewer.congr fun e mem => ?_
    obtain ⟨-, source, target⟩ := mem_edges_ofWorkflow.1 mem
    have faces : ((ofWorkflow w chosen).nodes.map Node.face).Sublist (w.nodes.map Node.face) :=
      List.filter_sublist.map _
    exact ⟨Workflow.settings?_sublist h.nodeIds faces source,
      Workflow.settings?_sublist h.nodeIds faces target⟩
  canonical n mem := h.canonical n (List.mem_of_mem_filter mem)

/-! ## Pasting -/

/-- A copy has the settings of its original. -/
def Copies (n m : Node) : Prop := m.config = n.config

theorem run_mapM_cons {α β : Type} (f : α → Fresh β) (a : α) (as : List α) (ids : IdSource) :
    ((a :: as).mapM f).run ids
      = (((f a).run ids).1 :: ((as.mapM f).run ((f a).run ids).2).1,
          ((as.mapM f).run ((f a).run ids).2).2) := by
  rw [List.mapM_cons]
  rfl

/-- Every node is copied once, in their order and under a new identifier. -/
theorem drawn_copyNodes (offset : Float) (nodes : List Node) (distinct : ids.Distinct) :
    List.Forall₂ Copies nodes ((nodes.mapM (copyNode offset)).run ids).1
      ∧ ids.Draws ((nodes.mapM (copyNode offset)).run ids).2
          (((nodes.mapM (copyNode offset)).run ids).1.map (·.id))
      ∧ ∀ m ∈ ((nodes.mapM (copyNode offset)).run ids).1, m.id ≠ "" := by
  induction nodes generalizing ids with
  | nil => exact ⟨.nil, ids.draws_nil, fun _ mem => absurd mem List.not_mem_nil⟩
  | cons n nodes ih =>
    have one : (copyNode offset n).run ids
        = ({ n with id := n.kind.name ++ "_" ++ ids.suffix ids.used
                    position := n.position.shifted offset }, ids.next) := rfl
    obtain ⟨copies, draws, named⟩ := @ih ids.next (ids.later_next.distinct distinct)
    rw [run_mapM_cons, one]
    refine ⟨.cons rfl copies, (ids.draws_next (n.kind.name ++ "_")).append draws distinct, ?_⟩
    exact List.forall_mem_cons.2 ⟨joined_ne_empty _ _, named⟩

/-- Edges are copied whose two ends are renamed, in their order and under new identifiers. -/
theorem drawn_copyEdges (names : List (String × String)) (edges : List Edge)
    (distinct : ids.Distinct) :
    ((copyEdges names edges).run ids).1.map Edge.bare = edges.filterMap (Edge.renamed (List.lookup · names))
      ∧ ids.Draws ((copyEdges names edges).run ids).2
          (((copyEdges names edges).run ids).1.map (·.id)) := by
  induction edges generalizing ids with
  | nil => exact ⟨rfl, ids.draws_nil⟩
  | cons e edges ih =>
    rw [copyEdges, List.filterMap_cons, Edge.renamed]
    cases source : names.lookup e.source with
    | none => exact ih distinct
    | some s =>
      cases target : names.lookup e.target with
      | none => exact ih distinct
      | some t =>
        obtain ⟨bare, draws⟩ := @ih ids.next (ids.later_next.distinct distinct)
        constructor
        · exact congrArg (List.cons _) bare
        · exact (ids.draws_next ("edge_" ++ s ++ "_" ++ t ++ "_")).append draws distinct

variable {nodes copies : List Node}

/-- Every copy has an original. -/
theorem original_of_mem (pairs : List.Forall₂ Copies nodes copies) {m : Node} (mem : m ∈ copies) :
    ∃ n ∈ nodes, m.config = n.config := by
  induction pairs with
  | nil => cases mem
  | @cons n _ nodes _ copied _ ih =>
    rcases List.mem_cons.1 mem with rfl | later
    · exact ⟨n, List.mem_cons_self, copied⟩
    · obtain ⟨n', memN, config⟩ := ih later
      exact ⟨n', List.mem_cons_of_mem _ memN, config⟩

/-- An old identifier and its new one are those of a node and its copy. -/
theorem mem_newNames (pairs : List.Forall₂ Copies nodes copies) {x z : String}
    (found : (newNames nodes copies).lookup x = some z) :
    ∃ n ∈ nodes, ∃ m ∈ copies, n.id = x ∧ m.id = z ∧ m.config = n.config := by
  have mem : (x, z) ∈ (nodes.map (·.id)).zip (copies.map (·.id)) :=
    List.mem_reverse.1 (mem_of_lookup found)
  rw [List.zip_map, List.mem_map] at mem
  obtain ⟨⟨n, m⟩, both, same⟩ := mem
  obtain ⟨memN, memM⟩ := List.of_mem_zip both
  obtain ⟨idN, idM⟩ := Prod.mk.inj same
  exact ⟨n, memN, m, memM, idN, idM, (List.forall₂_iff_zip.1 pairs).2 both⟩

/-- No two identifiers have the same new one. -/
theorem newNames_inj (pairs : List.Forall₂ Copies nodes copies)
    (distinct : (copies.map (·.id)).Nodup) {x y z : String}
    (first : (newNames nodes copies).lookup x = some z)
    (second : (newNames nodes copies).lookup y = some z) : x = y := by
  refine lookup_inj ?_ first second
  have length : (copies.map (·.id)).length ≤ (nodes.map (·.id)).length := by
    rw [List.length_map, List.length_map]
    exact Nat.le_of_eq pairs.length_eq.symm
  rw [newNames, List.map_reverse, List.nodup_reverse]
  show (List.map Prod.snd _).Nodup
  rw [List.map_snd_zip length]
  exact distinct

/-- Copies of what is on a clipboard but the triggers, under new identifiers, can be told from what is
in a settled workflow and are sound by themselves. -/
theorem joins_of_copies {c : Clip} (h : c.Settled) (settled : w.Settled ids) {between after : IdSource}
    {edges : List Edge} (kept : nodes ⊆ c.nodes) (plain : ∀ n ∈ nodes, n.isA .trigger = false)
    (pairs : List.Forall₂ Copies nodes copies) (drawsNodes : ids.Draws between (copies.map (·.id)))
    (named : ∀ m ∈ copies, m.id ≠ "")
    (bare : edges.map Edge.bare
      = c.edges.filterMap (Edge.renamed (List.lookup · (newNames nodes copies))))
    (drawsEdges : between.Draws after (edges.map (·.id))) : w.Joins copies edges where
  nodeIds := drawsNodes.distinct
  edgeIds := drawsEdges.distinct
  newNodes m mem there := drawsNodes.not_mem (settled.nodes _ there) (List.mem_map_of_mem mem)
  newEdges e mem there :=
    drawsEdges.not_mem (drawsNodes.later.spares (settled.edges _ there)) (List.mem_map_of_mem mem)
  named := named
  trigger := by
    have noTrigger : copies.countP (·.isA .trigger) = 0 := by
      rw [List.countP_eq_zero]
      intro m mem isTrigger
      obtain ⟨n, memN, config⟩ := original_of_mem pairs mem
      have other := plain n memN
      rw [Node.isA, Node.kind, config] at isTrigger
      rw [Node.isA, Node.kind, isTrigger] at other
      cases other
    rw [noTrigger]
    exact settled.wellFormed.trigger
  sound := by
    rw [← Workflow.sound_map_bare_iff, bare]
    refine h.sound.rename (fun x y z => newNames_inj pairs drawsNodes.distinct) fun x z found => ?_
    obtain ⟨n, memN, m, memM, rfl, rfl, config⟩ := mem_newNames pairs found
    rw [(Workflow.settings?_eq_some_iff drawsNodes.distinct).2 ⟨m, memM, rfl, rfl⟩,
      (Workflow.settings?_eq_some_iff h.nodeIds).2 ⟨n, kept memN, rfl, rfl⟩, config]
  canonical := by
    intro m mem
    obtain ⟨n, memN, config⟩ := original_of_mem pairs mem
    rw [config]
    exact h.canonical n (kept memN)

/-- A paste draws an identifier for every node and every edge that it adds. -/
theorem joins_copy {c : Clip} (h : c.Settled) (settled : w.Settled ids) (distinct : ids.Distinct)
    (offset : Float) :
    let pasted := ((c.copy offset).run ids).1
    let after := ((c.copy offset).run ids).2
    w.Joins pasted.nodes pasted.edges
      ∧ ids.Draws after (pasted.nodes.map (·.id) ++ pasted.edges.map (·.id)) := by
  intro pasted after
  obtain ⟨pairs, drawsNodes, named⟩ :=
    drawn_copyNodes offset (c.nodes.filter fun n => !n.isA .trigger) distinct
  obtain ⟨bare, drawsEdges⟩ :=
    drawn_copyEdges (newNames (c.nodes.filter fun n => !n.isA .trigger) pasted.nodes) c.edges
      (drawsNodes.later.distinct distinct)
  refine ⟨?_, drawsNodes.append drawsEdges distinct⟩
  refine joins_of_copies h settled List.filter_sublist.subset (fun n mem => ?_) pairs drawsNodes named
    bare drawsEdges
  simpa using (List.mem_filter.1 mem).2

end Clip

/-! ## Edits -/

namespace Editor

variable {ids : IdSource} {e : Editor}

theorem Settled.copy (h : e.Settled ids) : e.copy.1.Settled ids := by
  refine holds_copy h ⟨h.canvases, fun c found => ?_⟩
  obtain rfl := Option.some.inj found
  exact Clip.settled_ofWorkflow h.workflow.wellFormed _

/-- A paste keeps an editor settled, with the source where the paste leaves it. -/
theorem Settled.paste (h : e.Settled ids) (distinct : ids.Distinct) :
    ids.Later (e.paste.run ids).2 ∧ (e.paste.run ids).1.1.Settled (e.paste.run ids).2 := by
  cases copied : e.clipboard with
  | none =>
    rw [run_paste_of_none copied]
    exact ⟨.refl ids, h⟩
  | some c =>
    obtain ⟨joins, draws⟩ :=
      Clip.joins_copy (h.clipboard c copied) h.workflow distinct e.limits.pasteOffset
    rw [run_paste copied]
    refine ⟨draws.later, ?_⟩
    dsimp only
    split
    · exact h.later draws.later
    · have spared := draws.spares distinct
      have before := h.workflow.later draws.later
      refine (h.later draws.later).record ⟨before.wellFormed.append joins, ?_, ?_⟩ _
      · intro id mem
        rw [Workflow.nodeIds, List.map_append, List.mem_append] at mem
        rcases mem with old | new
        · exact before.nodes id old
        · exact spared id (List.mem_append_left _ new)
      · intro id mem
        rw [Workflow.edgeIds, List.map_append, List.mem_append] at mem
        rcases mem with old | new
        · exact before.edges id old
        · exact spared id (List.mem_append_right _ new)

end Editor

end Journey
