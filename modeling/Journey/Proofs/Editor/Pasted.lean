import Journey.Proofs.Editor.Clipboard

/-!
# Journey.Proofs.Editor.Pasted -- a paste is a faithful copy under new identifiers

A paste adds what is on the clipboard once more: every node but the triggers, with all that it says besides its
identifier and a place a little to the side, and every edge between two of these nodes, as it was but for the
highlight.  The old identifiers of the nodes become new ones by one renaming, and so do the ends of the edges
(`Clip.CopiedAs`).  What was in the workflow stays, and only what is new is selected (`Editor.Pasted`).

The table of new names is written from the nodes and their copies, one beside the other.  Where the old
identifiers are distinct, each is found in it once, beside that of its own copy (`lookup_newNames`); hence the
copies are the nodes under the renaming that the table gives.  The clipboard does not change, so everything may be
pasted again, and since what is drawn is never drawn again, the second copy has nothing in common with the first
one.  Main statement: `pasted_paste`.
-/

namespace Journey

set_option autoImplicit false

/-- The node under another name, moved by an amount in both directions. -/
def Node.pasted (name : String → String) (offset : Float) (n : Node) : Node :=
  { n with id := name n.id, position := ⟨n.position.x + offset, n.position.y + offset⟩ }

/-- The edge under an identifier, between its ends under other names; it is not highlighted. -/
def Edge.pasted (name : String → String) (e : Edge) (id : String) : Edge :=
  { e with
    id, source := name e.source, target := name e.target
    data := { branch := e.data.branch, highlighted := false } }

namespace Clip

/-- The nodes that are pasted. -/
def kept (c : Clip) : List Node := c.nodes.filter fun n => !n.isA .trigger

/-- Whether both ends of an edge are pasted. -/
def keepsEnds (c : Clip) (e : Edge) : Bool :=
  (c.kept.map (·.id)).contains e.source && (c.kept.map (·.id)).contains e.target

/-- The identifiers of all nodes and edges. -/
def ids (c : Clip) : List String := c.nodes.map (·.id) ++ c.edges.map (·.id)

/-- What is pasted of a clip, under a renaming that keeps its nodes apart. -/
structure CopiedAs (name : String → String) (offset : Float) (c copy : Clip) : Prop where
  apart : ∀ n ∈ c.kept, ∀ m ∈ c.kept, name n.id = name m.id → n.id = m.id
  nodes : copy.nodes = c.kept.map (Node.pasted name offset)
  edges : List.Forall₂ (fun e f => f = e.pasted name f.id) (c.edges.filter c.keepsEnds) copy.edges

variable {ids : IdSource} {nodes copies : List Node} {offset : Float} {a b : String}
  {names : List (String × String)}

/-! ## The renaming -/

/-- Where all old names are different, every pair of a table is found in it. -/
theorem lookup_of_mem (distinct : (names.map (·.1)).Nodup) (mem : (a, b) ∈ names) :
    names.lookup a = some b := by
  have there : (names.lookup a).isSome = true := List.lookup_isSome_iff.2 ⟨(a, b), mem, by simp⟩
  obtain ⟨c, found⟩ := Option.isSome_iff_exists.1 there
  have same := List.inj_on_of_nodup_map distinct mem (mem_of_lookup found) rfl
  rw [found]
  exact congrArg some (congrArg Prod.snd same).symm

/-- The new name that a table has for an old one. -/
def rename (names : List (String × String)) (id : String) : String := (names.lookup id).getD id

/-- A node and what is drawn for it: the same but for the identifier and the place. -/
def Redraws (offset : Float) (n m : Node) : Prop :=
  m = { n with id := m.id, position := n.position.shifted offset }

theorem redraws_copyNodes (offset : Float) (nodes : List Node) (ids : IdSource) :
    List.Forall₂ (Redraws offset) nodes ((nodes.mapM (copyNode offset)).run ids).1 := by
  induction nodes generalizing ids with
  | nil => exact .nil
  | cons n nodes ih =>
    rw [run_mapM_cons]
    exact .cons rfl (ih _)

/-- Every node is found in the table beside its own copy. -/
theorem lookup_newNames (distinct : (nodes.map (·.id)).Nodup) (length : nodes.length = copies.length)
    {n m : Node} (both : (n, m) ∈ nodes.zip copies) : (newNames nodes copies).lookup n.id = some m.id := by
  refine lookup_of_mem ?_ ?_
  · rw [newNames, List.map_reverse, List.nodup_reverse, List.map_fst_zip (by simp [length])]
    exact distinct
  · rw [newNames, List.mem_reverse, List.zip_map]
    exact List.mem_map_of_mem both

/-- The old names in the table are those of the nodes. -/
theorem isSome_lookup_newNames (length : nodes.length = copies.length) :
    ((newNames nodes copies).lookup a).isSome = (nodes.map (·.id)).contains a := by
  have keys : (newNames nodes copies).map (·.1) = (nodes.map (·.id)).reverse := by
    rw [newNames, List.map_reverse, List.map_fst_zip (by simp [length])]
  rw [Bool.eq_iff_iff, List.contains_iff_mem, ← List.mem_reverse, ← keys, List.lookup_isSome_iff]
  simp

/-- The copies are the nodes under the renaming that the table gives. -/
theorem eq_map_of_redraws (distinct : (nodes.map (·.id)).Nodup)
    (pairs : List.Forall₂ (Redraws offset) nodes copies) :
    copies = nodes.map (Node.pasted (rename (newNames nodes copies)) offset) := by
  obtain ⟨length, redrawn⟩ := List.forall₂_iff_zip.1 pairs
  have each : List.Forall₂ (fun n m => Node.pasted (rename (newNames nodes copies)) offset n = m)
      nodes copies := by
    refine List.forall₂_iff_zip.2 ⟨length, fun {n m} both => ?_⟩
    have name : rename (newNames nodes copies) n.id = m.id := by
      rw [rename, lookup_newNames distinct length both, Option.getD_some]
    rw [Node.pasted, name, redrawn both]
    rfl
  have same : List.Forall₂ Eq (nodes.map (Node.pasted (rename (newNames nodes copies)) offset)) copies :=
    List.forall₂_map_left_iff.2 each
  rw [List.forall₂_eq_eq_eq] at same
  exact same.symm

/-- The edges whose two ends have new names are copied, each under an identifier of its own. -/
theorem pasted_copyEdges (names : List (String × String)) (edges : List Edge) (ids : IdSource) :
    List.Forall₂ (fun e f => f = e.pasted (rename names) f.id)
      (edges.filter fun e => (names.lookup e.source).isSome && (names.lookup e.target).isSome)
      ((copyEdges names edges).run ids).1 := by
  induction edges generalizing ids with
  | nil => exact .nil
  | cons e edges ih =>
    rw [copyEdges, List.filter_cons]
    cases source : names.lookup e.source with
    | none => exact ih ids
    | some s =>
      cases target : names.lookup e.target with
      | none => exact ih ids
      | some t =>
        have own : e.pasted (rename names) ("edge_" ++ s ++ "_" ++ t ++ "_" ++ ids.suffix ids.used)
            = ((copyEdge e s t).run ids).1 := by
          rw [Edge.pasted, rename, rename, source, target]
          rfl
        exact .cons own.symm (ih ids.next)

/-- What a paste draws is a copy under identifiers that differ from each other. -/
theorem copiedAs_copy (c : Clip) (distinct : ids.Distinct) (unique : (c.nodes.map (·.id)).Nodup)
    (offset : Float) :
    (∃ name, c.CopiedAs name offset ((c.copy offset).run ids).1)
      ∧ ids.Draws ((c.copy offset).run ids).2 ((c.copy offset).run ids).1.ids := by
  obtain ⟨-, drawsNodes, -⟩ := drawn_copyNodes offset c.kept distinct
  have pairs := redraws_copyNodes offset c.kept ids
  have old : (c.kept.map (·.id)).Nodup := unique.sublist (List.filter_sublist.map _)
  set copies := ((c.kept.mapM (copyNode offset)).run ids).1
  obtain ⟨-, drawsEdges⟩ :=
    drawn_copyEdges (newNames c.kept copies) c.edges (drawsNodes.later.distinct distinct)
  have nodes := eq_map_of_redraws old pairs
  refine ⟨⟨rename (newNames c.kept copies), ?_, nodes, ?_⟩, drawsNodes.append drawsEdges distinct⟩
  · intro n memN m memM same
    have new : (c.kept.map fun n => rename (newNames c.kept copies) n.id).Nodup := by
      have drawn := drawsNodes.distinct
      rw [nodes, List.map_map] at drawn
      exact drawn
    rw [List.inj_on_of_nodup_map new memN memM same]
  · have ends : c.keepsEnds = fun e => ((newNames c.kept copies).lookup e.source).isSome
        && ((newNames c.kept copies).lookup e.target).isSome := by
      funext e
      rw [isSome_lookup_newNames pairs.length_eq, isSome_lookup_newNames pairs.length_eq]
      rfl
    rw [ends]
    exact pasted_copyEdges _ _ _

/-- Where nothing is to be pasted, nothing is drawn. -/
theorem copy_of_kept_eq_nil {c : Clip} (nothing : c.kept = []) (offset : Float) :
    (c.copy offset).run ids = ({}, ids) := by
  have edges (es : List Edge) : (copyEdges [] es).run ids = ([], ids) := by
    induction es with
    | nil => rfl
    | cons e es ih => exact ih
  have run : (c.copy offset).run ids
      = ({ nodes := [], edges := ((copyEdges [] c.edges).run ids).1 },
          ((copyEdges [] c.edges).run ids).2) := by
    rw [copy]
    change ((do
      let copies ← c.kept.mapM (copyNode offset)
      return { nodes := copies, edges := ← copyEdges (newNames c.kept copies) c.edges } :
        Fresh Clip).run ids) = _
    rw [nothing]
    rfl
  rw [run, edges]

end Clip

namespace Editor

/-- An editor after a paste of a clip: the copy is new, it stands after what was there, it alone is selected, and
the clipboard is as it was. -/
structure Pasted (e : Editor) (c copy : Clip) (f : Editor) : Prop where
  copied : ∃ name, c.CopiedAs name e.limits.pasteOffset copy
  distinct : copy.ids.Nodup
  new : ∀ id ∈ copy.ids, id ∉ e.workflow.nodeIds ∧ id ∉ e.workflow.edgeIds
  workflow : f.workflow = { e.workflow with
    nodes := e.workflow.nodes ++ copy.nodes, edges := e.workflow.edges ++ copy.edges }
  selection : f.selection = { nodes := copy.nodes.map (·.id), edges := copy.edges.map (·.id) }
  clipboard : f.clipboard = e.clipboard

/-- No identifier of the workflow is drawn again. -/
def Spared (ids : IdSource) (e : Editor) : Prop :=
  (∀ id ∈ e.workflow.nodeIds, ids.Spares id) ∧ ∀ id ∈ e.workflow.edgeIds, ids.Spares id

variable {ids : IdSource} {e : Editor} {c : Clip}

theorem paste_of_kept_eq_nil (nothing : (e.clipboard.getD {}).kept = []) : e.paste.run ids = ((e, none), ids) := by
  cases clip : e.clipboard with
  | none => exact run_paste_of_none clip ids
  | some c =>
    rw [clip, Option.getD_some] at nothing
    have drawn : (c.copy e.limits.pasteOffset).run ids = _ := Clip.copy_of_kept_eq_nil nothing _
    rw [run_paste clip, drawn]
    rfl

/-- What a paste adds, and that it has not used up what it needs to be repeated. -/
theorem pasted_of_kept_ne_nil (distinct : ids.Distinct) (spared : e.Spared ids) (clip : e.clipboard = some c)
    (unique : (c.nodes.map (·.id)).Nodup) (nonempty : c.kept ≠ []) :
    ∃ copy, (e.paste.run ids).1 = (e.insert copy, some copy) ∧ e.Pasted c copy (e.insert copy)
      ∧ ids.Later (e.paste.run ids).2 ∧ (e.insert copy).Spared (e.paste.run ids).2 := by
  obtain ⟨⟨name, copied⟩, draws⟩ := c.copiedAs_copy distinct unique e.limits.pasteOffset
  have run := run_paste clip ids
  dsimp only at run
  generalize (c.copy e.limits.pasteOffset).run ids = drawn at copied draws run
  obtain ⟨copy, after⟩ := drawn
  have full : copy.nodes.isEmpty = false := by
    rw [copied.nodes]
    simpa using nonempty
  rw [run, full]
  refine ⟨copy, rfl, ?_, draws.later, ?_⟩
  · refine ⟨⟨name, copied⟩, draws.distinct, fun id mem => ⟨fun there => ?_, fun there => ?_⟩, rfl, rfl, rfl⟩
    · exact draws.not_mem (spared.1 id there) mem
    · exact draws.not_mem (spared.2 id there) mem
  · have new := draws.spares distinct
    constructor
    · intro id mem
      rw [insert, workflow_record, Workflow.nodeIds, List.map_append, List.mem_append] at mem
      rcases mem with old | added
      · exact draws.later.spares (spared.1 id old)
      · exact new id (List.mem_append_left _ added)
    · intro id mem
      rw [insert, workflow_record, Workflow.edgeIds, List.map_append, List.mem_append] at mem
      rcases mem with old | added
      · exact draws.later.spares (spared.2 id old)
      · exact new id (List.mem_append_right _ added)

/-- Where the nodes on the clipboard can be told apart and what is drawn is new, a paste adds a faithful copy of
what is on the clipboard but the triggers, and selects it; the clipboard stays, and a second paste adds a copy that
has nothing in common with the first.  Where nothing but triggers is on the clipboard, nothing happens. -/
theorem pasted_paste (e : Editor) (distinct : ids.Distinct) (spared : e.Spared ids)
    (unique : ((e.clipboard.getD {}).nodes.map (·.id)).Nodup) :
    let c := e.clipboard.getD {}
    let once := e.paste.run ids
    let twice := once.1.1.paste.run once.2
    (c.kept = [] → once = ((e, none), ids))
      ∧ (c.kept ≠ [] → ∃ copy more, once.1.2 = some copy ∧ e.Pasted c copy once.1.1
          ∧ twice.1.2 = some more ∧ once.1.1.Pasted c more twice.1.1 ∧ ∀ id ∈ more.ids, id ∉ copy.ids) := by
  intro c once twice
  refine ⟨paste_of_kept_eq_nil, fun nonempty => ?_⟩
  obtain ⟨clip, held⟩ : ∃ clip, e.clipboard = some clip := by
    cases held : e.clipboard with
    | none => exact absurd (show c.kept = [] by simp only [c, held]; rfl) nonempty
    | some clip => exact ⟨clip, rfl⟩
  have same : c = clip := by simp only [c, held, Option.getD_some]
  rw [held, Option.getD_some] at unique
  obtain ⟨copy, first, pasted, later, again⟩ := pasted_of_kept_ne_nil distinct spared held unique (same ▸ nonempty)
  have kept : (e.insert copy).clipboard = some clip := pasted.clipboard.trans held
  obtain ⟨more, second, pastedAgain, -, -⟩ :=
    pasted_of_kept_ne_nil (later.distinct distinct) again kept unique (same ▸ nonempty)
  have onceIs : once.1 = (e.insert copy, some copy) := first
  have twiceIs : twice.1 = ((e.insert copy).insert more, some more) := by
    simp only [twice, onceIs]
    exact second
  refine ⟨copy, more, by rw [onceIs], ?_, by rw [twiceIs], ?_, fun id mem old => ?_⟩
  · rw [onceIs, same]
    exact pasted
  · rw [onceIs, twiceIs, same]
    exact pastedAgain
  · -- the first copy is part of the workflow into which the second one is pasted
    obtain ⟨noNode, noEdge⟩ := pastedAgain.new id mem
    rcases List.mem_append.1 old with node | edge
    · exact noNode (by rw [Workflow.nodeIds, pasted.workflow, List.map_append]; exact List.mem_append_right _ node)
    · exact noEdge (by rw [Workflow.edgeIds, pasted.workflow, List.map_append]; exact List.mem_append_right _ edge)

/-- The forked workflow after all of it was selected and copied. -/
def forkCopied : Editor := ((ofWorkflow .forked).select { nodes := ["t", "c", "x"] }).copy.1

/-- Of the fork, the condition and the exit are pasted with the edge between them, and then once more. -/
theorem pasted_paste_forkCopied :
    forkCopied.Spared .strokes
      ∧ ((forkCopied.clipboard.getD {}).nodes.map (·.id)).Nodup
      ∧ (∃ copy, forkCopied.Pasted (forkCopied.clipboard.getD {}) copy (forkCopied.paste.run .strokes).1.1
          ∧ copy.ids = ["condition_#", "exit_#i", "edge_condition_#_exit_#i_#ii"])
      ∧ ((forkCopied.paste.run .strokes).1.1.paste.run (forkCopied.paste.run .strokes).2).1.1.workflow.edges.map
          (fun e => (e.source, e.target, e.door))
        = [("t", "c", ""), ("c", "x", "else"), ("condition_#", "exit_#i", "else"),
            ("condition_#iii", "exit_#iiii", "else")] := by
  have spared : forkCopied.Spared .strokes := by
    have nodes : ∀ id ∈ forkCopied.workflow.nodeIds, '#' ∉ id.toList := by decide +kernel
    have edges : ∀ id ∈ forkCopied.workflow.edgeIds, '#' ∉ id.toList := by decide +kernel
    exact ⟨fun id mem => IdSource.spares_strokes (nodes id mem),
      fun id mem => IdSource.spares_strokes (edges id mem)⟩
  have unique : ((forkCopied.clipboard.getD {}).nodes.map (·.id)).Nodup := by decide +kernel
  have kept : ((forkCopied.clipboard.getD {}).kept.map (·.id)) = ["c", "x"] := by decide +kernel
  have nonempty : (forkCopied.clipboard.getD {}).kept ≠ [] := by
    intro nothing
    rw [nothing] at kept
    cases kept
  obtain ⟨copy, more, first, pasted, -⟩ :=
    (pasted_paste forkCopied IdSource.distinct_strokes spared unique).2 nonempty
  have drawn : (forkCopied.paste.run .strokes).1.2.map Clip.ids
      = some ["condition_#", "exit_#i", "edge_condition_#_exit_#i_#ii"] := by decide +kernel
  rw [first, Option.map_some, Option.some.injEq] at drawn
  exact ⟨spared, unique, ⟨copy, pasted, drawn⟩, by decide +kernel⟩

end Editor

end Journey
