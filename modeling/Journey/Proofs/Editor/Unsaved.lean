import Journey.Proofs.Editor.Refused

/-!
# Journey.Proofs.Editor.Unsaved -- no change is lost sight of

An editor with nothing to save holds the workflow that was last kept: the one it opened, or the one that
was stored last.  Edges may be highlighted in between, which is no change of the workflow.

A command that keeps nothing either idles or advances (`perform_of_keeps_none`): it leaves the workflow as
it is but for the light of its edges, or makes a new revision that is to be saved.  A batch of moves that
cannot be read to its end does neither, since it moves nodes and says nothing of it, so that the batches
are taken to be readable.  Main statement: `unlit_lastKept`.
-/

namespace Journey

set_option autoImplicit false

/-! ## Workflows but for the light of their edges -/

namespace Workflow

/-- The workflow with no edge highlighted. -/
def unlit (w : Workflow) : Workflow := w.highlight []

@[simp] theorem unlit_highlight (w : Workflow) (ids : List String) : (w.highlight ids).unlit = w.unlit := by
  simp [unlit, highlight, Edge.highlight, Function.comp_def]

end Workflow

/-- Every place in a batch can be read. -/
def Command.Readable : Command → Prop
  | .applyNodeChanges changes => ∀ change ∈ changes, ¬ change.IsFaulty
  | _ => True

namespace Editor

variable {e f : Editor} {c : Command} {cs : List Command} {w v : Workflow} {ids : IdSource}

/-! ## One command -/

/-- The workflow is the same but for the light of its edges, and there is no more to save than before. -/
structure Idles (e f : Editor) : Prop where
  workflow : f.workflow.unlit = e.workflow.unlit
  dirty : f.dirty = e.dirty
  revision : f.revision = e.revision

/-- There is a new revision, and it is to be saved. -/
structure Advances (e f : Editor) : Prop where
  dirty : f.dirty = true
  revision : f.revision = e.revision + 1

theorem idles_refl (e : Editor) : e.Idles e := ⟨rfl, rfl, rfl⟩

theorem idles_select (e : Editor) (s : Selection) : e.Idles (e.select s) :=
  holds_select e.idles_refl ⟨rfl, rfl, rfl⟩

theorem idles_copy (e : Editor) : e.Idles e.copy.1 := holds_copy e.idles_refl ⟨rfl, rfl, rfl⟩

theorem idles_highlight (e : Editor) (edges : List String) : e.Idles (e.highlight edges) :=
  ⟨e.workflow.unlit_highlight edges, rfl, rfl⟩

theorem advances_touch (e : Editor) (w : Workflow) : e.Advances (e.touch w) := ⟨rfl, rfl⟩

theorem Records.idles_or_advances (h : e.Records f) : e.Idles f ∨ e.Advances f := by
  rcases h with rfl | ⟨w, s, rfl⟩
  · exact .inl f.idles_refl
  · exact .inr ⟨rfl, rfl⟩

theorem idles_or_advances_moveNode {id : String} {position : Document}
    (done : e.moveNode id position = .ok f) : e.Idles f ∨ e.Advances f := by
  obtain ⟨n, place, -, -, rfl⟩ := moveNode_eq_ok_iff.1 done
  split
  · exact .inl e.idles_refl
  · exact .inr (e.advances_touch _)

/-- A batch of moves that can be read is a new revision, or else it moves nothing. -/
theorem idles_or_advances_applyNodeChanges {changes : List NodeChange}
    (moves : changes.any (·.isRemoval) = false) (readable : ∀ change ∈ changes, ¬ change.IsFaulty) :
    e.Idles (e.applyNodeChanges changes).1 ∨ e.Advances (e.applyNodeChanges changes).1 := by
  refine holds_applyNodeChanges (p := fun f => e.Idles f ∨ e.Advances f) (.inl e.idles_refl)
    (fun removes => ?_) (fun _ => .inr (e.advances_touch _)) fun _ refused => ?_
  · exact absurd (removes.symm.trans moves) (by decide)
  · exact absurd (NodeChange.refusal_applyAll readable _) refused

theorem idles_or_advances_ofStep {x : Option Editor} (step : ∀ f, x = some f → e.Advances f) :
    e.Idles (Outcome.ofStep e x).editor ∨ e.Advances (Outcome.ofStep e x).editor := by
  cases x with
  | none => exact .inl e.idles_refl
  | some f => exact .inr (step f rfl)

theorem advances_undo? (undone : e.undo? = some f) : e.Advances f := by
  obtain ⟨t, -, rfl⟩ := Option.map_eq_some_iff.1 undone
  exact ⟨rfl, rfl⟩

theorem advances_redo? (redone : e.redo? = some f) : e.Advances f := by
  obtain ⟨t, -, rfl⟩ := Option.map_eq_some_iff.1 redone
  exact ⟨rfl, rfl⟩

/-- The workflow that a command keeps: what it opens with nothing to save, and what it stores. -/
def keeps? (e : Editor) : Command → Option Workflow
  | .load w _ false => some w
  | .save store now => (e.save store now).toOption.map fun _ => e.workflow
  | .markSaved .. => some e.workflow
  | _ => none

/-- A command that keeps nothing changes nothing, or makes a new revision that is to be saved. -/
theorem perform_of_keeps_none (h : e.keeps? c = none) (readable : c.Readable) (ids : IdSource) :
    let f := ((e.perform c).run ids).1.editor
    e.Idles f ∨ e.Advances f := by
  by_cases tracked : c.isTracked = true
  · exact (records_perform tracked e ids).idles_or_advances
  cases c with
  | load w keepHistory markDirty =>
    cases markDirty with
    | true => exact .inr ⟨rfl, rfl⟩
    | false => cases h
  | select s => exact .inl (e.idles_select s)
  | moveNode id position =>
    exact Outcome.holds_ofDone (p := fun f => e.Idles f ∨ e.Advances f) (.inl e.idles_refl)
      fun _ => idles_or_advances_moveNode
  | applyNodeChanges changes =>
    exact idles_or_advances_applyNodeChanges (Bool.eq_false_iff.2 tracked) readable
  | copy => exact .inl e.idles_copy
  | undo => exact idles_or_advances_ofStep fun _ => advances_undo?
  | redo => exact idles_or_advances_ofStep fun _ => advances_redo?
  | dryRun context rolls =>
    refine Outcome.holds_ofChange (p := fun f => e.Idles f ∨ e.Advances f) (.inl e.idles_refl) fun _ ran => ?_
    obtain ⟨-, -, -, shown⟩ := dryRun_eq_ok_iff.1 ran
    exact shown ▸ .inl ⟨e.workflow.unlit_highlight _, rfl, rfl⟩
  | clearDryRun => exact .inl ⟨e.workflow.unlit_highlight _, rfl, rfl⟩
  | highlight edges => exact .inl (e.idles_highlight edges)
  | clearHighlight => exact .inl (e.idles_highlight _)
  | snapshot => exact .inl e.idles_refl
  | save store now =>
    refine Outcome.holds_ofChange (p := fun f => e.Idles f ∨ e.Advances f) (.inl e.idles_refl) fun _ saved => ?_
    simp [keeps?, saved, Except.toOption] at h
  | markSaved stated now => cases h
  | _ => exact absurd rfl tracked

/-- A command that keeps a workflow leaves the editor with it and with nothing to save; where this is
another workflow than before it is a new revision. -/
theorem perform_of_keeps_some (h : e.keeps? c = some w) (ids : IdSource) :
    let f := ((e.perform c).run ids).1.editor
    f.workflow = w ∧ f.dirty = false
      ∧ (f.revision = e.revision + 1 ∨ f.revision = e.revision ∧ w = e.workflow) := by
  cases c with
  | load v keepHistory markDirty =>
    cases markDirty with
    | true => cases h
    | false =>
      cases h
      cases keepHistory <;> exact ⟨rfl, rfl, .inl rfl⟩
  | save store now =>
    cases saved : e.save store now with
    | error refusal => simp [keeps?, saved, Except.toOption] at h
    | ok out =>
      obtain ⟨-, -, marked⟩ := save_eq_ok_iff.1 saved
      have same : ((e.perform (.save store now)).run ids).1.editor = e.markSaved none now := by
        change (Outcome.ofChange e .saved (e.save store now)).editor = e.markSaved none now
        rw [saved]
        exact marked.symm
      rw [same]
      simp only [keeps?, saved, Except.toOption, Option.map_some, Option.some.injEq] at h
      exact ⟨h, rfl, .inr ⟨rfl, h.symm⟩⟩
  | markSaved stated now =>
    cases h
    exact ⟨rfl, rfl, .inr ⟨rfl, rfl⟩⟩
  | _ => cases h

/-- A command makes at most one revision, and one if the workflow is another one. -/
theorem revision_perform (readable : c.Readable) (e : Editor) (ids : IdSource) :
    let f := ((e.perform c).run ids).1.editor
    f.revision = e.revision + 1 ∨ f.revision = e.revision ∧ f.workflow.unlit = e.workflow.unlit := by
  intro f
  cases keeps : e.keeps? c with
  | none =>
    rcases perform_of_keeps_none keeps readable ids with idles | advances
    · exact .inr ⟨idles.revision, idles.workflow⟩
    · exact .inl advances.revision
  | some w =>
    obtain ⟨now, -, revision | ⟨revision, same⟩⟩ := perform_of_keeps_some keeps ids
    · exact .inl revision
    · exact .inr ⟨revision, congrArg Workflow.unlit (now.trans same)⟩

/-! ## The run -/

/-- With nothing to save the workflow is a given one, but for the light of its edges. -/
def Clean (e : Editor) (w : Workflow) : Prop := e.dirty = false → e.workflow.unlit = w.unlit

theorem Clean.perform (clean : e.Clean w) (readable : c.Readable) (ids : IdSource) :
    ((e.perform c).run ids).1.editor.Clean ((e.keeps? c).getD w) := by
  intro nothing
  cases keeps : e.keeps? c with
  | none =>
    rcases perform_of_keeps_none keeps readable ids with idles | advances
    · exact idles.workflow.trans (clean (idles.dirty.symm.trans nothing))
    · exact absurd (nothing.symm.trans advances.dirty) (by decide)
  | some v => exact congrArg Workflow.unlit (perform_of_keeps_some keeps ids).1

/-- The workflow that is kept last when the commands are carried out, the given one if there is none. -/
def lastKept (e : Editor) (w : Workflow) : List Command → IdSource → Workflow
  | [], _ => w
  | c :: cs, ids =>
      let out := (e.perform c).run ids
      out.1.editor.lastKept ((e.keeps? c).getD w) cs out.2

theorem Clean.afterAll (clean : e.Clean w) (readable : ∀ c ∈ cs, c.Readable) (ids : IdSource) :
    ((e.afterAll cs).run ids).1.Clean (e.lastKept w cs ids) := by
  induction cs generalizing e w ids with
  | nil => exact clean
  | cons c cs ih =>
    obtain ⟨first, rest⟩ := List.forall_mem_cons.1 readable
    rw [run_afterAll_cons]
    exact ih (clean.perform first ids) rest _

/-- No change is lost sight of.  Whatever is done with an editor, refused or not, with nothing to save it
holds the workflow that was last opened without a change or stored, but for the light of its edges.  And
every command makes at most one revision, exactly one whenever it changes more than this light. -/
theorem unlit_lastKept (w : Workflow) (limits : Limits) (cs : List Command) (ids : IdSource)
    (readable : ∀ c ∈ cs, c.Readable) :
    let start := ofWorkflow w limits
    let e := ((start.afterAll cs).run ids).1
    let t := ((start.afterAll cs).run ids).2
    (e.dirty = false → e.workflow.unlit = (start.lastKept w cs ids).unlit)
      ∧ ∀ c : Command, c.Readable →
          let f := ((e.perform c).run t).1.editor
          (f.revision = e.revision ∨ f.revision = e.revision + 1)
          ∧ (f.workflow.unlit ≠ e.workflow.unlit → f.revision = e.revision + 1) := by
  intro start e t
  have clean : start.Clean w := fun _ => rfl
  refine ⟨clean.afterAll readable ids, fun c readable => ?_⟩
  rcases revision_perform readable e t with revision | ⟨revision, same⟩
  · exact ⟨.inr revision, fun _ => revision⟩
  · exact ⟨.inl revision, fun other => absurd same other⟩

/-- A move and a name that are stored, a path that lights up, and a save that fails. -/
def storedOnce : List Command :=
  [.applyNodeChanges [.moved "c" (.object [("x", .int 5), ("y", .int 7)])],
    .describe (some "one") .null none, .save (fun _ => .ok ()) 1, .highlight ["e1"],
    .save (fun _ => .error "full") 2]

/-- The editor that has nothing to save after this holds what was stored, by its name. -/
theorem unlit_lastKept_storedOnce :
    let start := ofWorkflow .forked
    let e := ((start.afterAll storedOnce).run .strokes).1
    let kept := start.lastKept .forked storedOnce .strokes
    e.dirty = false ∧ e.workflow.unlit = kept.unlit ∧ kept.name = "one" := by
  intro start e kept
  have clean : (((ofWorkflow .forked).afterAll storedOnce).run .strokes).1.dirty = false := by
    decide +kernel
  have name : ((ofWorkflow .forked).lastKept .forked storedOnce .strokes).name = "one" := by
    decide +kernel
  have move : ¬ (NodeChange.moved "c" (.object [("x", .int 5), ("y", .int 7)])).IsFaulty := by
    rintro ⟨places, read⟩
    cases read
  have readable : ∀ c ∈ storedOnce, c.Readable := by
    simpa [storedOnce, Command.Readable] using move
  exact ⟨clean, (unlit_lastKept .forked {} storedOnce .strokes readable).1 clean, name⟩

end Editor

end Journey
