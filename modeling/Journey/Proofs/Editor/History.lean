import Journey.Proofs.Editor.Sessions

/-!
# Journey.Proofs.Editor.History -- taking back is exact and bounded

A command can do four things to the history.  A tracked one leaves the editor alone or records one
change; undo and redo go along the timeline; a workflow that is opened afresh drops it; and everything
else at most puts another canvas in the place of the present one.  `editor_perform_of_tracked` and
`timeline_perform_of_keeps` say so for every command, and nothing after them looks at a command again.

Two invariants carry the rest.  Past and future of an editor stay within the limit through any session
(`within_afterAll`), which is why one step back and one step forth cancel.  And in a session that only
goes on, the past lists what stood before each change, the last change first, cut off at the limit
(`past_afterAll`), which is what undos bring back one after the other (`undos?_of_le`).  Main statement:
`undos?_stoodBefore`.
-/

namespace Journey

set_option autoImplicit false

variable {ids : IdSource} {e f : Editor} {c : Command} {cs ds : List Command}

/-! ## What an edit returns -/

/-- Whatever is drawn, a result of the edit satisfies a condition. -/
def Edit.Returns {α : Type} (x : Edit α) (p : α → Prop) : Prop :=
  ∀ ids a, (x.run.run ids).1 = .ok a → p a

namespace Edit

variable {α β : Type} {p : α → Prop} {q : β → Prop}

theorem returns_pure {a : α} (h : p a) : (pure a : Edit α).Returns p := by
  intro ids b done
  cases done
  exact h

/-- What an edit returns may depend on what the first part of it returns. -/
theorem Returns.andThen {x : Edit α} {f : α → Edit β} (first : x.Returns p)
    (next : ∀ a, p a → (f a).Returns q) : (x >>= f).Returns q := by
  intro ids b done
  rw [run_bind] at done
  split at done
  · next a t run => exact next a (first ids a (congrArg Prod.fst run)) t b done
  · cases done

theorem Returns.bind {x : Edit α} {f : α → Edit β} (next : ∀ a, (f a).Returns q) :
    (x >>= f).Returns q :=
  Returns.andThen (fun _ _ _ => trivial) fun a _ => next a

theorem returns_of {x : Except Refusal α} (h : ∀ a, x = .ok a → p a) : (of x).Returns p :=
  fun _ a done => h a done

end Edit

/-- An insertion returns what a splice returns, laid out, recorded and with the new block selected. -/
theorem Editor.returns_insertAfter_of {p : Editor → Prop} {source : String} {handle : Option String}
    {kind title : Document} {config : Option Document}
    (spliced : ∀ n, n.isA .trigger = false → (splice e.workflow n source handle).Returns fun v =>
      p (e.record (e.laidOut v) (some (.node n.id)))) :
    (e.insertAfter source handle kind title config).Returns fun out => p out.1 := by
  unfold insertAfter
  refine .bind fun _ => .bind fun _ => .bind fun n => ?_
  split
  · have refused : (throw .triggerInserted : Edit PUnit).Returns fun _ => False := by
      intro ids a done
      cases done
    exact refused.andThen fun _ never => never.elim
  · next plain =>
    refine (spliced n (by simpa using plain)).andThen fun _ holds => ?_
    exact .bind fun _ => Edit.returns_pure holds

/-! ## Kinds of commands -/

namespace Command

/-- Whether what a command changes can be taken back. -/
def isTracked : Command → Bool
  | .replace .. | .describe .. | .addNew .. | .addNode .. | .patchNode .. | .patchConfig ..
  | .removeNode .. | .connect .. | .addEdge .. | .reconnect .. | .removeEdge .. | .removeSelection
  | .applyEdgeChanges .. | .paste | .autoLayout | .insertAfter .. => true
  | .applyNodeChanges changes => changes.any (·.isRemoval)
  | _ => false

/-- Whether a command neither goes along the history nor drops it. -/
def keepsHistory : Command → Bool
  | .undo | .redo | .load _ false _ => false
  | _ => true

end Command

namespace Editor

/-- The editor after another one with at most one recorded change in between. -/
def Records (e f : Editor) : Prop := f = e ∨ ∃ w s, f = e.record w s

/-- Another canvas may be present; the rest of the timeline is the same. -/
def Shows (e f : Editor) : Prop :=
  f.limits = e.limits ∧ ∃ canvas, f.timeline = e.timeline.replace canvas

theorem shows_refl (e : Editor) : e.Shows e := ⟨rfl, e.timeline.present, rfl⟩

theorem records_record (e : Editor) (w : Workflow) (s : Option Selection := none) :
    e.Records (e.record w s) :=
  .inr ⟨w, s, rfl⟩

end Editor

/-! ## One command -/

namespace Outcome

variable {α : Type} {answer : α → Answer} {p : Editor → Prop}

theorem holds_ofChange (same : p e) {x : Except Refusal (Editor × α)}
    (changed : ∀ out, x = .ok out → p out.1) : p (ofChange e answer x).editor := by
  cases x with
  | error refusal => exact same
  | ok out => exact changed out rfl

theorem holds_ofDone (same : p e) {x : Except Refusal Editor} (changed : ∀ f, x = .ok f → p f) :
    p (ofDone e x).editor := by
  cases x with
  | error refusal => exact same
  | ok f => exact changed f rfl

theorem holds_ofEdit (x : Edit (Editor × α)) (same : p e) (returns : x.Returns fun out => p out.1) :
    p (ofChange e answer (x.run.run ids).1).editor :=
  holds_ofChange same (returns ids)

end Outcome

namespace Editor

theorem records_describe {name : Option String} {status : Document} {version : Option Int}
    (done : e.describe name status version = .ok f) : e.Records f := by
  obtain ⟨s, -, rfl⟩ := describe_eq_ok_iff.1 done
  exact e.records_record _

theorem records_addNode {n : Node} {out : Editor × Node} (done : e.addNode n = .ok out) :
    e.Records out.1 := by
  obtain ⟨-, -, record, -⟩ := addNode_eq_ok_iff.1 done
  exact record ▸ e.records_record _ _

theorem records_patchNode {id : String} {patch : Fields} {out : Editor × Node}
    (done : e.patchNode id patch = .ok out) : e.Records out.1 := by
  obtain ⟨-, -, record⟩ := patchNode_eq_ok_iff.1 done
  exact record ▸ e.records_record _

theorem records_patchConfig {id : String} {patch : Fields} {out : Editor × Node}
    (done : e.patchConfig id patch = .ok out) : e.Records out.1 := by
  obtain ⟨n, -, ⟨c, -, -, follow⟩ | ⟨-, config, -, record, -⟩⟩ := patchConfig_eq_ok_iff.1 done
  · exact congrArg Prod.fst follow ▸ e.records_record _
  · exact record ▸ e.records_record _

theorem records_removeNode {id : String} (done : e.removeNode id = .ok f) : e.Records f := by
  obtain ⟨-, rfl⟩ := removeNode_eq_ok_iff.1 done
  exact e.records_record _

theorem records_addEdge {edge : Edge} {out : Editor × Edge} (done : e.addEdge edge = .ok out) :
    e.Records out.1 := by
  obtain ⟨-, -, -, record⟩ := addEdge_eq_ok_iff.1 done
  exact record ▸ e.records_record _ _

theorem records_removeEdge {id : String} (done : e.removeEdge id = .ok f) : e.Records f := by
  obtain ⟨-, rfl⟩ := removeEdge_eq_ok_iff.1 done
  exact e.records_record _

theorem records_removeSelection (e : Editor) : e.Records e.removeSelection :=
  holds_removeSelection (.inl rfl) (e.records_record _ _)

theorem records_applyEdgeChanges (e : Editor) (removed : List String) :
    e.Records (e.applyEdgeChanges removed) :=
  holds_applyEdgeChanges (.inl rfl) (e.records_record _)

theorem returns_addNew (e : Editor) (r : NodeRequest) :
    (e.addNew r).Returns fun out => e.Records out.1 :=
  .bind fun _ => Edit.returns_of fun _ => records_addNode

theorem returns_addNewOf (e : Editor) (kind : Document) (position : Fields) (title : Document)
    (config : Option Document) :
    (e.addNewOf kind position title config).Returns fun out => e.Records out.1 :=
  .bind fun _ => e.returns_addNew _

theorem returns_connect (e : Editor) (c : Connection) :
    (e.connect c).Returns fun out => e.Records out.1 :=
  .bind fun _ => Edit.returns_pure (e.records_record _ _)

theorem returns_reconnect (e : Editor) (id : String) (c : Connection) :
    (e.reconnect id c).Returns fun out => e.Records out.1 :=
  .bind fun _ => .bind fun _ => Edit.returns_pure (e.records_record _ _)

theorem returns_insertAfter (e : Editor) (source : String) (handle : Option String)
    (kind title : Document) (config : Option Document) :
    (e.insertAfter source handle kind title config).Returns fun out => e.Records out.1 :=
  returns_insertAfter_of fun _ _ _ _ _ => e.records_record _ _

theorem records_paste (e : Editor) (ids : IdSource) : e.Records (e.paste.run ids).1.1 :=
  holds_paste (.inl rfl) fun _ _ => e.records_record _ _

/-- A batch with a removal is recorded as a whole. -/
theorem records_applyNodeChanges {changes : List NodeChange}
    (removes : changes.any (·.isRemoval) = true) : e.Records (e.applyNodeChanges changes).1 := by
  refine holds_applyNodeChanges (.inl rfl) (fun _ => e.records_record _) (fun moves => ?_)
    fun moves _ => ?_
  · exact absurd (removes.symm.trans moves) (by decide)
  · exact absurd (removes.symm.trans moves) (by decide)

theorem shows_touch (e : Editor) (w : Workflow) : e.Shows (e.touch w) := ⟨rfl, _, rfl⟩

theorem shows_repaint (e : Editor) (w : Workflow) : e.Shows (e.repaint w) := ⟨rfl, _, rfl⟩

theorem shows_select (e : Editor) (s : Selection) : e.Shows (e.select s) :=
  holds_select e.shows_refl ⟨rfl, _, rfl⟩

theorem shows_moveNode {id : String} {position : Document} (done : e.moveNode id position = .ok f) :
    e.Shows f := by
  obtain ⟨n, place, -, -, rfl⟩ := moveNode_eq_ok_iff.1 done
  split
  · exact e.shows_refl
  · exact e.shows_touch _

/-- A batch of moves leaves no trace in the history, whether it is refused or not. -/
theorem shows_applyNodeChanges {changes : List NodeChange}
    (moves : changes.any (·.isRemoval) = false) : e.Shows (e.applyNodeChanges changes).1 := by
  refine holds_applyNodeChanges e.shows_refl (fun removes => ?_) (fun _ => e.shows_touch _)
    fun _ _ => e.shows_repaint _
  exact absurd (removes.symm.trans moves) (by decide)

theorem shows_copy (e : Editor) : e.Shows e.copy.1 :=
  holds_copy e.shows_refl ⟨rfl, e.timeline.present, rfl⟩

theorem records_autoLayout (done : e.autoLayout = .ok f) : e.Records f := by
  obtain ⟨-, rfl⟩ := autoLayout_eq_ok_iff.1 done
  exact e.records_record _

theorem shows_dryRun {context : Fields} {rolls : Nat → Float} {out : Editor × Simulation}
    (done : e.dryRun context rolls = .ok out) : e.Shows out.1 := by
  obtain ⟨-, -, -, shown⟩ := dryRun_eq_ok_iff.1 done
  exact shown ▸ ⟨rfl, _, rfl⟩

theorem shows_save {store : SaveSnapshot → Except String Unit} {now : Instant} {out : Editor × SaveSnapshot}
    (done : e.save store now = .ok out) : e.Shows out.1 := by
  obtain ⟨-, -, saved⟩ := save_eq_ok_iff.1 done
  exact saved ▸ ⟨rfl, e.timeline.present, rfl⟩

/-- A tracked command leaves the editor alone or records one change. -/
theorem records_perform (tracked : c.isTracked = true) (e : Editor) (ids : IdSource) :
    e.Records ((e.perform c).run ids).1.editor := by
  cases c with
  | replace w selection => exact e.records_record _ _
  | describe name status version => exact Outcome.holds_ofDone (.inl rfl) fun _ => records_describe
  | addNew kind position title config =>
    exact Outcome.holds_ofEdit (e.addNewOf kind position title config) (.inl rfl)
      (e.returns_addNewOf kind position title config)
  | addNode n => exact Outcome.holds_ofChange (.inl rfl) fun _ => records_addNode
  | patchNode id patch => exact Outcome.holds_ofChange (.inl rfl) fun _ => records_patchNode
  | patchConfig id patch => exact Outcome.holds_ofChange (.inl rfl) fun _ => records_patchConfig
  | removeNode id => exact Outcome.holds_ofDone (.inl rfl) fun _ => records_removeNode
  | connect c => exact Outcome.holds_ofEdit (e.connect c) (.inl rfl) (e.returns_connect c)
  | addEdge edge => exact Outcome.holds_ofChange (.inl rfl) fun _ => records_addEdge
  | reconnect id c => exact Outcome.holds_ofEdit (e.reconnect id c) (.inl rfl) (e.returns_reconnect id c)
  | removeEdge id => exact Outcome.holds_ofDone (.inl rfl) fun _ => records_removeEdge
  | removeSelection => exact e.records_removeSelection
  | applyNodeChanges changes => exact records_applyNodeChanges tracked
  | applyEdgeChanges removed => exact e.records_applyEdgeChanges removed
  | paste => exact e.records_paste ids
  | autoLayout => exact Outcome.holds_ofDone (.inl rfl) fun _ => records_autoLayout
  | insertAfter source handle kind title config =>
    exact Outcome.holds_ofEdit (e.insertAfter source handle kind title config) (.inl rfl)
      (e.returns_insertAfter source handle kind title config)
  | _ => cases tracked

/-- Any other command that keeps the history leaves past and future as they are. -/
theorem shows_perform (untracked : c.isTracked = false) (keeps : c.keepsHistory = true) (e : Editor)
    (ids : IdSource) : e.Shows ((e.perform c).run ids).1.editor := by
  cases c with
  | load w keepHistory markDirty =>
    cases keepHistory with
    | true => exact ⟨rfl, _, rfl⟩
    | false => cases keeps
  | select selection => exact e.shows_select selection
  | moveNode id position => exact Outcome.holds_ofDone e.shows_refl fun _ => shows_moveNode
  | applyNodeChanges changes => exact shows_applyNodeChanges untracked
  | copy => exact e.shows_copy
  | dryRun context rolls => exact Outcome.holds_ofChange e.shows_refl fun _ => shows_dryRun
  | clearDryRun => exact ⟨rfl, _, rfl⟩
  | highlight edges => exact e.shows_repaint _
  | clearHighlight => exact e.shows_repaint _
  | snapshot => exact e.shows_refl
  | save store now => exact Outcome.holds_ofChange e.shows_refl fun _ => shows_save
  | markSaved stated now => exact ⟨rfl, e.timeline.present, rfl⟩
  | undo => cases keeps
  | redo => cases keeps
  | _ => cases untracked

/-! ## The history through a session -/

/-- Past and future together have no more canvases than the limit. -/
def Bounded (e : Editor) : Prop := e.timeline.Within e.limits.history

theorem Records.bounded (h : e.Records f) (bounded : e.Bounded) : f.limits = e.limits ∧ f.Bounded := by
  rcases h with rfl | ⟨w, s, rfl⟩
  · exact ⟨rfl, bounded⟩
  · exact ⟨rfl, Timeline.Within.record _⟩

theorem Shows.bounded (h : e.Shows f) (bounded : e.Bounded) : f.limits = e.limits ∧ f.Bounded := by
  obtain ⟨limits, canvas, timeline⟩ := h
  refine ⟨limits, ?_⟩
  rw [Bounded, limits, timeline]
  exact bounded.replace canvas

theorem bounded_undo? (bounded : e.Bounded) (undone : e.undo? = some f) :
    f.limits = e.limits ∧ f.Bounded := by
  obtain ⟨t, back, rfl⟩ := Option.map_eq_some_iff.1 undone
  exact ⟨rfl, bounded.back back⟩

theorem bounded_redo? (bounded : e.Bounded) (redone : e.redo? = some f) :
    f.limits = e.limits ∧ f.Bounded := by
  obtain ⟨t, forth, rfl⟩ := Option.map_eq_some_iff.1 redone
  exact ⟨rfl, bounded.forth forth⟩

theorem bounded_ofStep (bounded : e.Bounded) {x : Option Editor}
    (step : ∀ f, x = some f → f.limits = e.limits ∧ f.Bounded) :
    (Outcome.ofStep e x).editor.limits = e.limits ∧ (Outcome.ofStep e x).editor.Bounded := by
  cases x with
  | none => exact ⟨rfl, bounded⟩
  | some f => exact step f rfl

/-- No command changes the limits, or lets past and future grow beyond them. -/
theorem Bounded.perform (bounded : e.Bounded) (c : Command) (ids : IdSource) :
    ((e.perform c).run ids).1.editor.limits = e.limits ∧ ((e.perform c).run ids).1.editor.Bounded := by
  by_cases tracked : c.isTracked = true
  · exact (records_perform tracked e ids).bounded bounded
  by_cases keeps : c.keepsHistory = true
  · exact (shows_perform (Bool.eq_false_iff.2 tracked) keeps e ids).bounded bounded
  cases c with
  | load w keepHistory markDirty =>
    cases keepHistory with
    | true => exact absurd rfl keeps
    | false => exact ⟨rfl, Timeline.Within.forget⟩
  | undo => exact bounded_ofStep bounded fun _ => bounded_undo? bounded
  | redo => exact bounded_ofStep bounded fun _ => bounded_redo? bounded
  | _ => exact absurd rfl keeps

/-- The editor of the last outcome, the given one if there is none. -/
def last (e : Editor) (outcomes : List Outcome) : Editor :=
  (outcomes.getLast?.map (·.editor)).getD e

theorem last_cons (e : Editor) (o : Outcome) (outcomes : List Outcome) :
    e.last (o :: outcomes) = o.editor.last outcomes := by
  rw [last, last, List.getLast?_cons]
  cases outcomes.getLast? <;> rfl

/-- The editor when all commands have been carried out. -/
def afterAll (e : Editor) (cs : List Command) : Fresh Editor := do
  return e.last (← e.performAll cs)

theorem run_afterAll_cons (e : Editor) (c : Command) (cs : List Command) (ids : IdSource) :
    (e.afterAll (c :: cs)).run ids
      = (((e.perform c).run ids).1.editor.afterAll cs).run ((e.perform c).run ids).2 :=
  congrArg (·, _) (e.last_cons _ _)

theorem Bounded.afterAll (bounded : e.Bounded) (cs : List Command) (ids : IdSource) :
    ((e.afterAll cs).run ids).1.limits = e.limits ∧ ((e.afterAll cs).run ids).1.Bounded := by
  induction cs generalizing e ids with
  | nil => exact ⟨rfl, bounded⟩
  | cons c cs ih =>
    obtain ⟨limits, kept⟩ := bounded.perform c ids
    rw [run_afterAll_cons, ← limits]
    exact ih kept _

/-! ## What undos bring back -/

/-- Whether a command makes a change that can be taken back: the workflow of a tracked one is a new
revision. -/
def makesChange (e : Editor) (c : Command) (ids : IdSource) : Bool :=
  c.isTracked && decide (e.revision < ((e.perform c).run ids).1.editor.revision)

/-- What stood immediately before each change that can be taken back, the first change first. -/
def stoodBefore (e : Editor) : List Command → IdSource → List Canvas
  | [], _ => []
  | c :: cs, ids =>
      let out := (e.perform c).run ids
      if e.makesChange c ids then e.timeline.present :: out.1.editor.stoodBefore cs out.2
      else out.1.editor.stoodBefore cs out.2

/-- A change puts what stood before it on the past; without one the past stays as it is. -/
theorem past_perform (keeps : c.keepsHistory = true) (e : Editor) (ids : IdSource) :
    ((e.perform c).run ids).1.editor.timeline.past
      = if e.makesChange c ids then (e.timeline.present :: e.timeline.past).take e.limits.history
        else e.timeline.past := by
  by_cases tracked : c.isTracked = true
  · rcases records_perform tracked e ids with same | ⟨w, s, same⟩
    · simp [makesChange, tracked, same]
    · simp [makesChange, tracked, same, record, Timeline.record]
  · obtain ⟨-, canvas, same⟩ := shows_perform (Bool.eq_false_iff.2 tracked) keeps e ids
    simp [makesChange, tracked, same, Timeline.replace]

theorem take_append_take {α : Type} (as bs : List α) (n : Nat) :
    (as ++ bs.take n).take n = (as ++ bs).take n := by
  rw [List.take_append, List.take_append, List.take_take, Nat.min_eq_left (Nat.sub_le _ _)]

/-- In a session that only goes on, the past lists what stood before each change, the last change
first. -/
theorem past_afterAll (bounded : e.Bounded) (keeps : ∀ d ∈ ds, d.keepsHistory = true)
    (ids : IdSource) :
    ((e.afterAll ds).run ids).1.timeline.past
      = ((e.stoodBefore ds ids).reverse ++ e.timeline.past).take e.limits.history := by
  induction ds generalizing e ids with
  | nil =>
    have fits : e.timeline.past.length ≤ e.limits.history := Nat.le_of_add_right_le bounded
    exact (List.take_of_length_le fits).symm
  | cons c cs ih =>
    obtain ⟨first, rest⟩ := List.forall_mem_cons.1 keeps
    obtain ⟨limits, kept⟩ := bounded.perform c ids
    rw [run_afterAll_cons, ih kept rest, limits, past_perform first, stoodBefore]
    split
    · rw [take_append_take, List.reverse_cons, List.append_assoc, List.singleton_append]
    · rfl

/-- The editor after a number of undos, none if there is nothing left to take back on the way. -/
def undos? (e : Editor) : Nat → Option Editor
  | 0 => some e
  | n + 1 => e.undo?.bind fun f => f.undos? n

theorem undo?_eq_none_iff : e.undo? = none ↔ e.timeline.past = [] := by
  rw [undo?, Option.map_eq_none_iff, Timeline.back?]
  split <;> simp_all

/-- An undo makes the nearest canvas of the past present. -/
theorem undo?_of_past {canvas : Canvas} {past : List Canvas} (h : e.timeline.past = canvas :: past) :
    ∃ f, e.undo? = some f ∧ f.timeline.present = canvas ∧ f.timeline.past = past := by
  rw [undo?, Timeline.back?, h]
  exact ⟨_, rfl, rfl, rfl⟩

/-- As many undos as there are canvases on the past bring them back one after the other. -/
theorem undos?_of_le {n : Nat} (le : n ≤ e.timeline.past.length) :
    ∃ f, e.undos? n = some f ∧ f.timeline.past = e.timeline.past.drop n
      ∧ (1 ≤ n → e.timeline.past[n - 1]? = some f.timeline.present) := by
  induction n generalizing e with
  | zero => exact ⟨e, rfl, rfl, fun h => absurd h (by omega)⟩
  | succ n ih =>
    cases stack : e.timeline.past with
    | nil => simp [stack] at le
    | cons canvas past =>
      obtain ⟨f, undone, present, rest⟩ := undo?_of_past stack
      rw [stack, List.length_cons, Nat.add_le_add_iff_right, ← rest] at le
      obtain ⟨g, further, left, found⟩ := ih le
      refine ⟨g, by rw [undos?, undone]; exact further, by rw [left, rest]; rfl, fun _ => ?_⟩
      cases n with
      | zero =>
        cases further
        exact congrArg some present.symm
      | succ n =>
        rw [rest] at found
        exact found (by omega)

/-- Undo and redo are exact and bounded.  In every editor of a session past and future together have
no more canvases than the limit, and one step back and one step forth cancel.  From where nothing can
be taken back, a session that only goes on leaves as many undos as it made changes, but no more than
the limit; each of them brings back the canvas that stood immediately before its change. -/
theorem undos?_stoodBefore (w : Workflow) (limits : Limits) (cs : List Command) (ids : IdSource) :
    let e := (((ofWorkflow w limits).afterAll cs).run ids).1
    let t := (((ofWorkflow w limits).afterAll cs).run ids).2
    e.timeline.past.length + e.timeline.future.length ≤ limits.history
      ∧ (∀ f, e.undo? = some f → ∃ g, f.redo? = some g ∧ g.timeline = e.timeline)
      ∧ (∀ f, e.redo? = some f → ∃ g, f.undo? = some g ∧ g.timeline = e.timeline)
      ∧ (e.timeline.past = [] → ∀ ds : List Command, (∀ d ∈ ds, d.keepsHistory = true) →
          let before := e.stoodBefore ds t
          let f := ((e.afterAll ds).run t).1
          (∀ j, 1 ≤ j → j ≤ min before.length limits.history →
            ∃ g, f.undos? j = some g ∧ before[before.length - j]? = some g.timeline.present)
          ∧ ∃ g, f.undos? (min before.length limits.history) = some g ∧ g.undo? = none) := by
  intro e t
  have start : (ofWorkflow w limits).Bounded := Nat.zero_le _
  obtain ⟨same, bounded⟩ := start.afterAll cs ids
  change e.limits = limits at same
  change e.Bounded at bounded
  refine ⟨same ▸ bounded, fun f => timeline_redo?_of_undo? bounded,
    fun f => timeline_undo?_of_redo? bounded, fun void ds keeps => ?_⟩
  intro before f
  have past : f.timeline.past = before.reverse.take limits.history := by
    have run := past_afterAll bounded keeps t
    rw [void, List.append_nil, same] at run
    exact run
  have length : f.timeline.past.length = min before.length limits.history := by
    rw [past, List.length_take, List.length_reverse, Nat.min_comm]
  constructor
  · intro j pos le
    obtain ⟨g, undone, -, found⟩ := undos?_of_le (n := j) (e := f) (by omega)
    refine ⟨g, undone, ?_⟩
    rw [← found pos, past, List.getElem?_take_of_lt (by omega), List.getElem?_reverse (by omega)]
    congr 1
    omega
  · obtain ⟨g, undone, rest, -⟩ := undos?_of_le (Nat.le_of_eq length.symm)
    refine ⟨g, undone, undo?_eq_none_iff.2 ?_⟩
    rw [rest, List.drop_eq_nil_iff]
    exact Nat.le_of_eq length

/-- Three names one after the other, with a selection and a move in between. -/
def threeNames : List Command :=
  [.describe (some "one") .null none, .select (.node "c"), .describe (some "two") .null none,
    .moveNode "x" (.object [("x", .int 5)]), .describe (some "three") .null none]

/-- With room for two changes, the first of three names can no longer be taken back. -/
theorem undos?_stoodBefore_threeNames :
    let e := ofWorkflow .forked { history := 2 }
    let before := e.stoodBefore threeNames .strokes
    let f := ((e.afterAll threeNames).run .strokes).1
    before.map (·.workflow.name) = [Workflow.forked.name, "one", "two"]
      ∧ (∃ g, f.undos? 2 = some g ∧ before[1]? = some g.timeline.present)
      ∧ ∃ g, f.undos? 2 = some g ∧ g.undo? = none := by
  intro e before f
  have names : before.map (·.workflow.name) = [Workflow.forked.name, "one", "two"] := by
    decide +kernel
  have three : before.length = 3 := by
    simpa using congrArg List.length names
  obtain ⟨-, -, -, run⟩ := undos?_stoodBefore .forked { history := 2 } [] .strokes
  obtain ⟨each, spent⟩ := run rfl threeNames (by decide)
  have second := each 2 (by decide) (by show 2 ≤ min before.length 2; omega)
  refine ⟨names, ?_, ?_⟩
  · change ∃ g, f.undos? 2 = some g ∧ before[before.length - 2]? = some g.timeline.present at second
    rwa [three] at second
  · change ∃ g, f.undos? (min before.length 2) = some g ∧ g.undo? = none at spent
    rwa [three] at spent

end Editor

end Journey
