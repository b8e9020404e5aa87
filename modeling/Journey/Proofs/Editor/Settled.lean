import Journey.Editor.Basic
import Journey.Proofs.Graph.WellFormed
import Journey.Proofs.Supply

/-!
# Journey.Proofs.Editor.Settled -- editors all of whose workflows are in shape

A workflow is settled when it is well formed and the identifiers in it are spared by all that are still
to be drawn.  An editor is settled when its workflow is, and with it every workflow that can come back:
those on the past and the future of its timeline.  What is on the clipboard was copied from a workflow
that may be gone by the time it is pasted, so it has to be in shape by itself (`Clip.Settled`).

The ways in which an editor takes another workflow keep it settled if the workflow is, and so does every
step on the timeline (`Settled.record`, `Settled.undo`, `Settled.redo`).
-/

namespace Journey

set_option autoImplicit false

/-! ## Tables of new names -/

section Tables

variable {names : List (String × String)} {a b c : String}

theorem mem_of_lookup (found : names.lookup a = some c) : (a, c) ∈ names := by
  obtain ⟨before, after, rfl, -⟩ := List.lookup_eq_some_iff.1 found
  exact List.mem_append_right _ List.mem_cons_self

/-- Where all new names are different, no two names have the same new one. -/
theorem lookup_inj (distinct : (names.map (·.2)).Nodup) (first : names.lookup a = some c)
    (second : names.lookup b = some c) : a = b := by
  have same := List.inj_on_of_nodup_map distinct (mem_of_lookup first) (mem_of_lookup second) rfl
  exact congrArg Prod.fst same

end Tables

/-! ## Timelines -/

/-- Every value of a timeline has a property. -/
structure Timeline.All {α : Type} (p : α → Prop) (t : Timeline α) : Prop where
  present : p t.present
  past : ∀ a ∈ t.past, p a
  future : ∀ a ∈ t.future, p a

namespace Timeline

variable {α : Type} {p q : α → Prop} {t u : Timeline α} {limit : Nat} {a : α}

theorem All.imp (h : t.All p) (implies : ∀ a, p a → q a) : t.All q :=
  ⟨implies _ h.present, fun a mem => implies a (h.past a mem), fun a mem => implies a (h.future a mem)⟩

theorem All.replace (h : t.All p) (new : p a) : (t.replace a).All p := ⟨new, h.past, h.future⟩

theorem All.forget (h : t.All p) : t.forget.All p :=
  ⟨h.present, fun _ mem => absurd mem List.not_mem_nil, fun _ mem => absurd mem List.not_mem_nil⟩

theorem All.record (h : t.All p) (new : p a) : (t.record limit a).All p := by
  refine ⟨new, fun b mem => ?_, by simp [Timeline.record]⟩
  rcases List.mem_cons.1 (List.mem_of_mem_take mem) with rfl | old
  · exact h.present
  · exact h.past b old

theorem All.back (h : t.All p) (back : t.back? limit = some u) : u.All p := by
  obtain ⟨present, past, future⟩ := t
  cases past with
  | nil => cases back
  | cons a past =>
    simp only [back?, Option.some.injEq] at back
    subst back
    refine ⟨h.past a List.mem_cons_self, fun b mem => h.past b (List.mem_cons_of_mem _ mem),
      fun b mem => ?_⟩
    rcases List.mem_cons.1 (List.mem_of_mem_take mem) with rfl | old
    · exact h.present
    · exact h.future b old

theorem All.forth (h : t.All p) (forth : t.forth? limit = some u) : u.All p := by
  obtain ⟨present, past, future⟩ := t
  cases future with
  | nil => cases forth
  | cons a future =>
    simp only [forth?, Option.some.injEq] at forth
    subst forth
    refine ⟨h.future a List.mem_cons_self, fun b mem => ?_,
      fun b mem => h.future b (List.mem_cons_of_mem _ mem)⟩
    rcases List.mem_cons.1 (List.mem_of_mem_take mem) with rfl | old
    · exact h.present
    · exact h.past b old

end Timeline

/-! ## Workflows -/

namespace Workflow

/-- A well-formed workflow no identifier of which is drawn again. -/
structure Settled (ids : IdSource) (w : Workflow) : Prop where
  wellFormed : w.WellFormed
  nodes : ∀ id ∈ w.nodeIds, ids.Spares id
  edges : ∀ id ∈ w.edgeIds, ids.Spares id

variable {ids ids' : IdSource} {w v : Workflow}

theorem Settled.later (h : w.Settled ids) (later : ids.Later ids') : w.Settled ids' :=
  ⟨h.wellFormed, fun id mem => later.spares (h.nodes id mem), fun id mem => later.spares (h.edges id mem)⟩

/-- A workflow without new identifiers is settled if it is well formed. -/
theorem Settled.without (h : w.Settled ids) (wellFormed : v.WellFormed)
    (nodes : ∀ id ∈ v.nodeIds, id ∈ w.nodeIds) (edges : ∀ id ∈ v.edgeIds, id ∈ w.edgeIds) :
    v.Settled ids :=
  ⟨wellFormed, fun id mem => h.nodes id (nodes id mem), fun id mem => h.edges id (edges id mem)⟩

/-- Only the faces of nodes, and the identifiers, ends and doors of edges matter. -/
theorem Settled.congr (h : w.Settled ids) (faces : v.nodes.map Node.face = w.nodes.map Node.face)
    (edgeIds : v.edgeIds = w.edgeIds) (bare : v.edges.map Edge.bare = w.edges.map Edge.bare) :
    v.Settled ids := by
  exact h.without (h.wellFormed.congr faces edgeIds bare) (fun id mem => nodeIds_congr faces ▸ mem)
    fun id mem => edgeIds ▸ mem

theorem Settled.withoutNodes (h : w.Settled ids) (gone : List String) :
    (w.withoutNodes gone).Settled ids :=
  h.without (h.wellFormed.withoutNodes gone) (fun _ mem => (List.filter_sublist.map _).subset mem)
    fun _ mem => (List.filter_sublist.map _).subset mem

theorem Settled.withoutEdges (h : w.Settled ids) (gone : List String) :
    (w.withoutEdges gone).Settled ids :=
  h.without (h.wellFormed.withoutEdges gone) (fun _ mem => mem)
    fun _ mem => (List.filter_sublist.map _).subset mem

theorem Settled.addNode (h : w.Settled ids) {n : Node} (new : n.id ∉ w.nodeIds) (named : n.id ≠ "")
    (trigger : n.isA .trigger = true → w.trigger? = none) (canonical : n.config.Canonical)
    (spared : ids.Spares n.id) : (w.addNode n).Settled ids where
  wellFormed := h.wellFormed.addNode new named trigger canonical
  nodes := by
    intro id mem
    rw [nodeIds, Workflow.addNode, List.map_append, List.mem_append, List.map_singleton,
      List.mem_singleton] at mem
    rcases mem with old | rfl
    · exact h.nodes id old
    · exact spared
  edges := h.edges

theorem Settled.addEdge (h : w.Settled ids) {e : Edge} (new : e.id ∉ w.edgeIds)
    (sound : Sound (settings? w.nodes) (w.edges ++ [e])) (spared : ids.Spares e.id) :
    (w.addEdge e).Settled ids where
  wellFormed := h.wellFormed.addEdge new sound
  nodes := h.nodes
  edges := by
    intro id mem
    rw [edgeIds, Workflow.addEdge, List.map_append, List.mem_append, List.map_singleton,
      List.mem_singleton] at mem
    rcases mem with old | rfl
    · exact h.edges id old
    · exact spared

end Workflow

/-- Nodes and edges that are sound by themselves. -/
structure Clip.Settled (c : Clip) : Prop where
  nodeIds : (c.nodes.map (·.id)).Nodup
  sound : Workflow.Sound (Workflow.settings? c.nodes) c.edges
  canonical : ∀ n ∈ c.nodes, n.config.Canonical

/-! ## Editors -/

namespace Editor

/-- Every workflow that is there or can come back is settled, and so is what can be pasted. -/
structure Settled (ids : IdSource) (e : Editor) : Prop where
  canvases : e.timeline.All fun c => c.workflow.Settled ids
  clipboard : ∀ c, e.clipboard = some c → c.Settled

variable {ids ids' : IdSource} {e f : Editor} {w : Workflow}

theorem settled_ofWorkflow {limits : Limits} (h : w.Settled ids) : (ofWorkflow w limits).Settled ids where
  canvases := ⟨h, by simp [ofWorkflow], by simp [ofWorkflow]⟩
  clipboard := by simp [ofWorkflow]

theorem Settled.workflow (h : e.Settled ids) : e.workflow.Settled ids := h.canvases.present

theorem Settled.later (h : e.Settled ids) (later : ids.Later ids') : e.Settled ids' :=
  ⟨h.canvases.imp fun _ settled => settled.later later, h.clipboard⟩

theorem Settled.record (h : e.Settled ids) (new : w.Settled ids) (s : Option Selection := none) :
    (e.record w s).Settled ids :=
  ⟨h.canvases.record new, h.clipboard⟩

theorem Settled.touch (h : e.Settled ids) (new : w.Settled ids) : (e.touch w).Settled ids :=
  ⟨h.canvases.replace new, h.clipboard⟩

theorem Settled.repaint (h : e.Settled ids) (new : w.Settled ids) : (e.repaint w).Settled ids :=
  ⟨h.canvases.replace new, h.clipboard⟩

theorem Settled.select (h : e.Settled ids) (s : Selection) : (e.select s).Settled ids := by
  unfold Editor.select
  split
  · exact h
  · exact ⟨h.canvases.replace h.workflow, h.clipboard⟩

theorem Settled.load (h : e.Settled ids) (new : w.Settled ids) (keepHistory markDirty : Bool) :
    (e.load w keepHistory markDirty).Settled ids := by
  have replaced := h.canvases.replace (a := { workflow := w }) new
  cases keepHistory with
  | true => exact ⟨replaced, h.clipboard⟩
  | false => exact ⟨replaced.forget, h.clipboard⟩

theorem Settled.undo (h : e.Settled ids) (undone : e.undo? = some f) : f.Settled ids := by
  obtain ⟨t, back, rfl⟩ := Option.map_eq_some_iff.1 undone
  exact ⟨h.canvases.back back, h.clipboard⟩

theorem Settled.redo (h : e.Settled ids) (redone : e.redo? = some f) : f.Settled ids := by
  obtain ⟨t, forth, rfl⟩ := Option.map_eq_some_iff.1 redone
  exact ⟨h.canvases.forth forth, h.clipboard⟩

end Editor

/-! ## Edits -/

theorem orRefuse_eq_ok_iff {α : Type} {x : Checked α} {a : α} :
    x.orRefuse = .ok a ↔ x = .valid a := by
  cases x with
  | valid b => simp [Checked.orRefuse]
  | faulty places => simp [Checked.orRefuse]

namespace Edit

variable {α β : Type} {ids : IdSource}

/-- An edit goes on where the one before it left the source, if that was not refused. -/
theorem run_bind (x : Edit α) (f : α → Edit β) :
    (x >>= f).run.run ids =
      match x.run.run ids with
      | (.ok a, t) => (f a).run.run t
      | (.error refusal, t) => (.error refusal, t) := by
  show (ExceptT.bindCont f (x.run.run ids).1).run (x.run.run ids).2 = _
  rcases x.run.run ids with ⟨_ | _, _⟩ <;> rfl

/-- Whatever an edit comes to, the source of identifiers has only moved on, and where it is not refused
its result and the source it leaves satisfy a condition. -/
structure Yields (x : Edit α) (ids : IdSource) (p : IdSource → α → Prop) : Prop where
  later : ids.Later (x.run.run ids).2
  holds : ∀ a, (x.run.run ids).1 = .ok a → p (x.run.run ids).2 a

variable {p : IdSource → α → Prop} {q : IdSource → β → Prop}

theorem yields_of {x : Except Refusal α} (h : ∀ a, x = .ok a → p ids a) : (of x).Yields ids p :=
  ⟨IdSource.Later.refl ids, h⟩

theorem yields_pure {a : α} (h : p ids a) : (pure a : Edit α).Yields ids p :=
  ⟨IdSource.Later.refl ids, fun b done => by cases done; exact h⟩

theorem yields_throw (refusal : Refusal) : (throw refusal : Edit α).Yields ids p :=
  ⟨IdSource.Later.refl ids, fun _ done => by cases done⟩

theorem yields_liftM {x : Fresh α} (later : ids.Later (x.run ids).2) (h : p (x.run ids).2 (x.run ids).1) :
    (liftM x : Edit α).Yields ids p :=
  ⟨later, fun b done => by cases done; exact h⟩

/-- What follows an edit starts from what that yields. -/
theorem Yields.bind {x : Edit α} {f : α → Edit β} (h : x.Yields ids p)
    (next : ∀ a t, ids.Later t → p t a → (f a).Yields t q) : (x >>= f).Yields ids q := by
  obtain ⟨later, holds⟩ := h
  rcases run : x.run.run ids with ⟨_ | a, t⟩
  · rw [run] at later
    constructor
    · rw [run_bind, run]
      exact later
    · intro b done
      rw [run_bind, run] at done
      cases done
  · rw [run] at later holds
    obtain ⟨onward, result⟩ := next a t later (holds a rfl)
    constructor
    · rw [run_bind, run]
      exact later.trans onward
    · rw [run_bind, run]
      exact result

/-- What is only let through yields what it would without. -/
theorem Yields.after {y : Edit β} (h : y.Yields ids q) (x : Except Refusal Unit) :
    (of x >>= fun _ => y).Yields ids q := by
  cases x with
  | error refusal => exact ⟨IdSource.Later.refl ids, fun _ done => by cases done⟩
  | ok _ => exact h

end Edit

end Journey
