import Journey.Proofs.Editor.History
import Mathlib.Data.List.Forall2

/-!
# Journey.Proofs.Editor.Highlights -- which dry run the highlighted edges belong to

A dry run highlights the edges it went along, and what is highlighted is fresh when it belongs to the dry run
that the editor holds (`Editor.Fresh`).  Every edit dims: what is highlighted after it was highlighted before,
under the same identifier, and the dry run is held on (`dims_perform`).  So whatever is done, highlights stay
fresh, except that undo and redo make another canvas present, with the highlights it had, and hold on to the
dry run (`Fresh.perform`).

Whose path a canvas shows is kept along the history in `shownAfter`, which goes back and forth with it.  Main
statement: `fresh_performAll_iff`.
-/

namespace Journey

set_option autoImplicit false

/-! ## Highlights of a workflow -/

/-- The edges that a dry run went along, none if there is no dry run. -/
def Simulation.path : Option Simulation → List String
  | some s => s.edges
  | none => []

namespace Workflow

/-- No edge is highlighted. -/
def Dark (w : Workflow) : Prop := ∀ edge ∈ w.edges, edge.data.highlighted = false

/-- Only edges that a dry run went along are highlighted, and none if there is no dry run. -/
def LitBy (w : Workflow) (s : Option Simulation) : Prop :=
  ∀ edge ∈ w.edges, edge.data.highlighted = true → edge.id ∈ Simulation.path s

instance (w : Workflow) : Decidable w.Dark :=
  inferInstanceAs (Decidable (∀ edge ∈ w.edges, edge.data.highlighted = false))

instance (w : Workflow) (s : Option Simulation) : Decidable (w.LitBy s) :=
  inferInstanceAs (Decidable
    (∀ edge ∈ w.edges, edge.data.highlighted = true → edge.id ∈ Simulation.path s))

/-- What is highlighted in the other workflow was highlighted under the same identifier. -/
def Dims (w v : Workflow) : Prop :=
  ∀ edge ∈ v.edges, edge.data.highlighted = true →
    ∃ old ∈ w.edges, old.id = edge.id ∧ old.data.highlighted = true

variable {w v u : Workflow} {s : Option Simulation} {edge : Edge}

theorem Dark.litBy (h : w.Dark) (s : Option Simulation) : w.LitBy s := by
  intro edge mem on
  rw [h edge mem] at on
  cases on

theorem litBy_none_iff : w.LitBy none ↔ w.Dark := by
  simp [LitBy, Dark, Simulation.path]

theorem litBy_highlight (w : Workflow) (s : Option Simulation) :
    (w.highlight (Simulation.path s)).LitBy s := by
  intro edge mem on
  obtain ⟨old, -, rfl⟩ := List.mem_map.1 mem
  simpa using on

theorem Dims.litBy (h : w.Dims v) (lit : w.LitBy s) : v.LitBy s := by
  intro edge mem on
  obtain ⟨old, memOld, same, onOld⟩ := h edge mem on
  exact same ▸ lit old memOld onOld

theorem dims_of_subset (sub : ∀ edge ∈ v.edges, edge ∈ w.edges) : w.Dims v :=
  fun edge mem on => ⟨edge, sub edge mem, rfl, on⟩

theorem Dims.trans (h : w.Dims v) (k : v.Dims u) : w.Dims u := by
  intro edge mem on
  obtain ⟨old, memOld, same, onOld⟩ := k edge mem on
  obtain ⟨older, memOlder, same', onOlder⟩ := h old memOld onOld
  exact ⟨older, memOlder, same'.trans same, onOlder⟩

theorem dims_of_dark (dark : v.Dark) : w.Dims v := by
  intro edge mem on
  rw [dark edge mem] at on
  cases on

theorem Dims.append (h : w.Dims v) {edges : List Edge} (same : u.edges = v.edges ++ edges)
    (dark : ∀ edge ∈ edges, edge.data.highlighted = false) : w.Dims u := by
  intro edge mem on
  rw [same] at mem
  rcases List.mem_append.1 mem with old | new
  · exact h edge old on
  · rw [dark edge new] at on
    cases on

theorem Dims.addEdge (h : w.Dims v) (dark : edge.data.highlighted = false) : w.Dims (v.addEdge edge) :=
  h.append rfl (List.forall_mem_singleton.2 dark)

theorem dims_withoutEdges (w : Workflow) (ids : List String) : w.Dims (w.withoutEdges ids) :=
  dims_of_subset fun _ mem => (List.mem_filter.1 mem).1

theorem dims_withoutNodes (w : Workflow) (ids : List String) : w.Dims (w.withoutNodes ids) :=
  dims_of_subset fun _ mem => (List.mem_filter.1 mem).1

end Workflow

theorem Edge.highlighted_onBranch (e : Edge) (handle : String) (config : Config) :
    (e.onBranch handle config).data.highlighted = e.data.highlighted := by
  unfold onBranch
  split <;> rfl

/-- Edges that follow their clauses keep their identifiers and their highlights. -/
theorem Workflow.dims_followClauses {w v : Workflow} {id : String} {config : Config}
    {follow? : String → Option String} (edges : v.edges = Editor.followClauses w.edges id config follow?) :
    w.Dims v := by
  intro edge mem on
  rw [edges] at mem
  obtain ⟨old, memOld, followed⟩ := List.mem_filterMap.1 mem
  by_cases leaves : (old.source == id) = true
  · rw [if_pos leaves] at followed
    obtain ⟨handle, -, rfl⟩ := Option.map_eq_some_iff.1 followed
    exact ⟨old, memOld, (old.id_onBranch handle config).symm,
      (old.highlighted_onBranch handle config).symm.trans on⟩
  · rw [if_neg leaves] at followed
    cases followed
    exact ⟨edge, memOld, rfl, on⟩

/-! ## Histories that correspond -/

/-- Two timelines whose values correspond. -/
structure Timeline.Pairs {α β : Type} (R : α → β → Prop) (t : Timeline α) (u : Timeline β) : Prop where
  present : R t.present u.present
  past : List.Forall₂ R t.past u.past
  future : List.Forall₂ R t.future u.future

namespace Timeline.Pairs

variable {α β : Type} {R : α → β → Prop} {t : Timeline α} {u : Timeline β} {a : α} {b : β}

theorem replace (h : Pairs R t u) (new : R a b) : Pairs R (t.replace a) (u.replace b) :=
  ⟨new, h.past, h.future⟩

theorem record (h : Pairs R t u) (new : R a b) (limit : Nat) :
    Pairs R (t.record limit a) (u.record limit b) :=
  ⟨new, List.forall₂_take limit (.cons h.present h.past), .nil⟩

theorem back (h : Pairs R t u) (limit : Nat) : Option.Rel (Pairs R) (t.back? limit) (u.back? limit) := by
  obtain ⟨now, past, future⟩ := t
  obtain ⟨now', past', future'⟩ := u
  obtain ⟨present, before, after⟩ := h
  dsimp only at before
  unfold back?
  cases before with
  | nil => exact .none
  | cons first before => exact .some ⟨first, before, List.forall₂_take limit (.cons present after)⟩

theorem forth (h : Pairs R t u) (limit : Nat) :
    Option.Rel (Pairs R) (t.forth? limit) (u.forth? limit) := by
  obtain ⟨now, past, future⟩ := t
  obtain ⟨now', past', future'⟩ := u
  obtain ⟨present, before, after⟩ := h
  dsimp only at after
  unfold forth?
  cases after with
  | nil => exact .none
  | cons first after => exact .some ⟨first, List.forall₂_take limit (.cons present before), after⟩

end Timeline.Pairs

/-! ## New edges are not highlighted -/

namespace Connection

variable {c : Connection} {nodes : List Node} {edges : List Edge} {edge : Edge}

theorem highlighted_of_check (granted : c.check nodes edges = .ok edge) :
    edge.data.highlighted = false := by
  unfold check at granted
  repeat' split at granted
  all_goals cases granted
  rfl

theorem highlighted_of_connect {fresh : Fresh Edge} (granted : c.connect nodes edges = .ok fresh)
    (ids : IdSource) : (fresh.run ids).1.data.highlighted = false := by
  unfold connect at granted
  cases checked : c.check nodes edges with
  | error reason =>
    rw [checked] at granted
    cases granted
  | ok edge =>
    rw [checked] at granted
    cases granted
    show edge.data.highlighted = false
    exact highlighted_of_check checked

theorem returns_draw (c : Connection) (nodes : List Node) (edges : List Edge) :
    (c.draw nodes edges).Returns fun edge => edge.data.highlighted = false := by
  refine .bind fun _ => ?_
  split
  · next fresh granted =>
    intro ids edge done
    cases done
    exact highlighted_of_connect granted ids
  · intro ids edge done
    cases done

end Connection

namespace Editor

variable {e f : Editor} {w : Workflow}

theorem dims_connectIfAllowed (c : Connection) (w : Workflow) (ids : IdSource) :
    w.Dims ((connectIfAllowed c w).run ids).1 := by
  unfold connectIfAllowed
  split
  · next fresh granted =>
    exact (Workflow.dims_of_subset fun _ mem => mem).addEdge (Connection.highlighted_of_connect granted ids)
  · exact Workflow.dims_of_subset fun _ mem => mem

/-! ## One command -/

/-- What is highlighted was highlighted before, and the dry run is held on. -/
structure Dims (e f : Editor) : Prop where
  workflow : e.workflow.Dims f.workflow
  simulation : f.simulation = e.simulation

theorem dims_of_subset (sub : ∀ edge ∈ f.workflow.edges, edge ∈ e.workflow.edges)
    (simulation : f.simulation = e.simulation) : e.Dims f :=
  ⟨Workflow.dims_of_subset sub, simulation⟩

theorem dims_refl (e : Editor) : e.Dims e := dims_of_subset (fun _ mem => mem) rfl

theorem dims_record (h : e.workflow.Dims w) (s : Option Selection := none) : e.Dims (e.record w s) :=
  ⟨h, rfl⟩

theorem dims_describe {name : Option String} {status : Document} {version : Option Int}
    (done : e.describe name status version = .ok f) : e.Dims f := by
  obtain ⟨s, -, rfl⟩ := describe_eq_ok_iff.1 done
  exact dims_of_subset (fun _ mem => mem) rfl

theorem dims_addNode {n : Node} {out : Editor × Node} (done : e.addNode n = .ok out) : e.Dims out.1 := by
  obtain ⟨-, -, record, -⟩ := addNode_eq_ok_iff.1 done
  exact record ▸ dims_of_subset (fun _ mem => mem) rfl

theorem dims_patchNode {id : String} {patch : Fields} {out : Editor × Node}
    (done : e.patchNode id patch = .ok out) : e.Dims out.1 := by
  obtain ⟨-, -, record⟩ := patchNode_eq_ok_iff.1 done
  exact record ▸ dims_of_subset (fun _ mem => mem) rfl

theorem dims_patchConfig {id : String} {patch : Fields} {out : Editor × Node}
    (done : e.patchConfig id patch = .ok out) : e.Dims out.1 := by
  obtain ⟨n, -, ⟨c, -, -, follow⟩ | ⟨-, config, -, record, -⟩⟩ := patchConfig_eq_ok_iff.1 done
  · exact congrArg Prod.fst follow ▸ dims_record (Workflow.dims_followClauses rfl)
  · exact record ▸ dims_of_subset (fun _ mem => mem) rfl

theorem dims_moveNode {id : String} {position : Document} (done : e.moveNode id position = .ok f) :
    e.Dims f := by
  obtain ⟨n, place, -, -, rfl⟩ := moveNode_eq_ok_iff.1 done
  split
  · exact e.dims_refl
  · exact dims_of_subset (fun _ mem => mem) rfl

theorem dims_removeNode {id : String} (done : e.removeNode id = .ok f) : e.Dims f := by
  obtain ⟨-, rfl⟩ := removeNode_eq_ok_iff.1 done
  exact dims_record (e.workflow.dims_withoutNodes [id])

theorem dims_addEdge {edge : Edge} (dark : edge.data.highlighted = false) {out : Editor × Edge}
    (done : e.addEdge edge = .ok out) : e.Dims out.1 := by
  obtain ⟨-, -, ⟨granted, -, last⟩, record⟩ := addEdge_eq_ok_iff.1 done
  have stays : out.2.data.highlighted = false := last ▸ dark
  exact record ▸ dims_record ((Workflow.dims_of_subset fun _ mem => mem).addEdge stays) _

theorem dims_removeEdge {id : String} (done : e.removeEdge id = .ok f) : e.Dims f := by
  obtain ⟨-, rfl⟩ := removeEdge_eq_ok_iff.1 done
  exact dims_record (e.workflow.dims_withoutEdges [id])

theorem dims_autoLayout (done : e.autoLayout = .ok f) : e.Dims f := by
  obtain ⟨-, rfl⟩ := autoLayout_eq_ok_iff.1 done
  exact dims_of_subset (fun _ mem => mem) rfl

theorem dims_removeSelection (e : Editor) : e.Dims e.removeSelection := by
  refine holds_removeSelection e.dims_refl (dims_record ?_ _)
  exact (Workflow.dims_withoutNodes _ _).trans (Workflow.dims_withoutEdges _ _)

theorem dims_applyEdgeChanges (e : Editor) (removed : List String) :
    e.Dims (e.applyEdgeChanges removed) :=
  holds_applyEdgeChanges e.dims_refl (dims_record (e.workflow.dims_withoutEdges removed))

/-- A batch of what the canvas reports touches edges only by taking some out. -/
theorem dims_applyNodeChanges (e : Editor) (changes : List NodeChange) :
    e.Dims (e.applyNodeChanges changes).1 := by
  have edges := (NodeChange.keeps_applyAll { workflow := e.workflow } changes).edges
  refine holds_applyNodeChanges e.dims_refl (fun _ => ?_) (fun _ => ?_) fun _ _ => ?_
  · exact dims_of_subset (fun _ mem => edges ▸ (List.mem_filter.1 mem).1) rfl
  · exact dims_of_subset (fun _ mem => edges ▸ mem) rfl
  · exact dims_of_subset (fun _ mem => edges ▸ mem) rfl

theorem returns_dims_addNew (e : Editor) (r : NodeRequest) :
    (e.addNew r).Returns fun out => e.Dims out.1 :=
  .bind fun _ => Edit.returns_of fun _ => dims_addNode

theorem returns_dims_addNewOf (e : Editor) (kind : Document) (position : Fields) (title : Document)
    (config : Option Document) :
    (e.addNewOf kind position title config).Returns fun out => e.Dims out.1 :=
  .bind fun _ => e.returns_dims_addNew _

theorem returns_dims_connect (e : Editor) (c : Connection) :
    (e.connect c).Returns fun out => e.Dims out.1 :=
  (c.returns_draw _ _).andThen fun _ dark =>
    Edit.returns_pure (dims_record ((Workflow.dims_of_subset fun _ mem => mem).addEdge dark) _)

theorem returns_dims_reconnect (e : Editor) (id : String) (c : Connection) :
    (e.reconnect id c).Returns fun out => e.Dims out.1 :=
  .bind fun old => ((redirected old c).returns_draw _ _).andThen fun _ dark =>
    Edit.returns_pure (dims_record ((e.workflow.dims_withoutEdges [id]).addEdge dark) _)

theorem returns_dims_splice (w : Workflow) (n : Node) (source : String) (handle : Option String) :
    (splice w n source handle).Returns fun v => w.Dims v := by
  unfold splice
  generalize (w.edges.find? fun edge => edge.leaves source handle) = displaced
  have taken : w.Dims ((w.addNode n).withoutEdges (displaced.map (·.id)).toList) :=
    (w.addNode n).dims_withoutEdges _
  refine (Connection.returns_draw _ _ _).andThen fun edge dark => ?_
  have joined := taken.addEdge dark
  cases displaced with
  | none => exact Edit.returns_pure joined
  | some displaced =>
    dsimp only
    split
    · refine .bind fun _ ids v done => ?_
      cases done
      exact joined.trans (dims_connectIfAllowed _ _ _)
    · exact Edit.returns_pure joined

theorem returns_dims_insertAfter (e : Editor) (source : String) (handle : Option String)
    (kind title : Document) (config : Option Document) :
    (e.insertAfter source handle kind title config).Returns fun out => e.Dims out.1 :=
  returns_insertAfter_of fun n _ ids v done =>
    ⟨returns_dims_splice e.workflow n source handle ids v done, rfl⟩

/-- What is pasted is not highlighted. -/
theorem highlighted_copyEdges (names : List (String × String)) (edges : List Edge) (ids : IdSource) :
    ∀ edge ∈ ((Clip.copyEdges names edges).run ids).1, edge.data.highlighted = false := by
  induction edges generalizing ids with
  | nil => exact fun _ mem => absurd mem List.not_mem_nil
  | cons e edges ih =>
    rw [Clip.copyEdges]
    split
    · exact List.forall_mem_cons.2 ⟨rfl, ih _⟩
    · exact ih ids

theorem dims_paste (e : Editor) (ids : IdSource) : e.Dims (e.paste.run ids).1.1 := by
  refine holds_paste e.dims_refl fun clip _ => dims_record ?_ _
  exact (Workflow.dims_of_subset fun _ mem => mem).append rfl (highlighted_copyEdges _ _ _)

end Editor

namespace Command

/-- A command that brings no highlighted edge along, and is not there to highlight edges. -/
def BringsNoLight : Command → Prop
  | .load w _ _ => w.Dark
  | .replace w _ => w.Dark
  | .addEdge edge => edge.data.highlighted = false
  | .highlight _ => False
  | _ => True

/-- Whether a command goes along the history. -/
def isTravel : Command → Bool
  | .undo | .redo => true
  | _ => false

/-- Whether a command puts another dry run in the place of the one that is held. -/
def setsDryRun : Command → Bool
  | .load .. | .dryRun .. | .clearDryRun => true
  | _ => false

end Command

namespace Editor

variable {e f : Editor} {c : Command} {cs : List Command}

/-- Every edit dims. -/
theorem dims_perform (noLight : c.BringsNoLight) (stays : c.isTravel = false)
    (keeps : c.setsDryRun = false) (e : Editor) (ids : IdSource) :
    e.Dims ((e.perform c).run ids).1.editor := by
  cases c with
  | replace w selection => exact dims_record (Workflow.dims_of_dark noLight) _
  | describe name status version => exact Outcome.holds_ofDone e.dims_refl fun _ => dims_describe
  | select selection => exact holds_select e.dims_refl (dims_of_subset (fun _ mem => mem) rfl)
  | addNew kind position title config =>
    exact Outcome.holds_ofEdit (e.addNewOf kind position title config) e.dims_refl
      (e.returns_dims_addNewOf kind position title config)
  | addNode n => exact Outcome.holds_ofChange e.dims_refl fun _ => dims_addNode
  | patchNode id patch => exact Outcome.holds_ofChange e.dims_refl fun _ => dims_patchNode
  | patchConfig id patch => exact Outcome.holds_ofChange e.dims_refl fun _ => dims_patchConfig
  | moveNode id position => exact Outcome.holds_ofDone e.dims_refl fun _ => dims_moveNode
  | removeNode id => exact Outcome.holds_ofDone e.dims_refl fun _ => dims_removeNode
  | connect c => exact Outcome.holds_ofEdit (e.connect c) e.dims_refl (e.returns_dims_connect c)
  | addEdge edge => exact Outcome.holds_ofChange e.dims_refl fun _ => dims_addEdge noLight
  | reconnect id c =>
    exact Outcome.holds_ofEdit (e.reconnect id c) e.dims_refl (e.returns_dims_reconnect id c)
  | removeEdge id => exact Outcome.holds_ofDone e.dims_refl fun _ => dims_removeEdge
  | removeSelection => exact e.dims_removeSelection
  | applyNodeChanges changes => exact e.dims_applyNodeChanges changes
  | applyEdgeChanges removed => exact e.dims_applyEdgeChanges removed
  | copy => exact holds_copy e.dims_refl (dims_of_subset (fun _ mem => mem) rfl)
  | paste => exact e.dims_paste ids
  | autoLayout => exact Outcome.holds_ofDone e.dims_refl fun _ => dims_autoLayout
  | insertAfter source handle kind title config =>
    exact Outcome.holds_ofEdit (e.insertAfter source handle kind title config) e.dims_refl
      (e.returns_dims_insertAfter source handle kind title config)
  | clearHighlight =>
    exact ⟨Workflow.dims_of_dark (Workflow.litBy_none_iff.1 (e.workflow.litBy_highlight none)), rfl⟩
  | snapshot => exact e.dims_refl
  | save store now =>
    refine Outcome.holds_ofChange e.dims_refl fun out done => ?_
    obtain ⟨-, -, saved⟩ := save_eq_ok_iff.1 done
    exact saved ▸ dims_of_subset (fun _ mem => mem) rfl
  | markSaved stated now => exact dims_of_subset (fun _ mem => mem) rfl
  | highlight edges => exact noLight.elim
  | undo | redo => cases stays
  | load _ _ _ | dryRun _ _ | clearDryRun => cases keeps

/-- Only edges that the dry run went along are highlighted, and none if none is held. -/
def Fresh (e : Editor) : Prop := e.workflow.LitBy e.simulation

instance (e : Editor) : Decidable e.Fresh := inferInstanceAs (Decidable (e.workflow.LitBy e.simulation))

theorem Dims.fresh (h : e.Dims f) (fresh : e.Fresh) : f.Fresh := by
  rw [Fresh, h.simulation]
  exact h.workflow.litBy fresh

/-- A command that sets the dry run highlights its path, and nothing if there is none; where the dry run is
refused the highlights are those of the one before. -/
theorem Fresh.perform_of_setsDryRun (fresh : e.Fresh) (noLight : c.BringsNoLight)
    (sets : c.setsDryRun = true) (ids : IdSource) : ((e.perform c).run ids).1.editor.Fresh := by
  cases c with
  | load w keepHistory markDirty => cases keepHistory <;> exact Workflow.Dark.litBy noLight none
  | dryRun context rolls =>
    refine Outcome.holds_ofChange fresh fun out done => ?_
    obtain ⟨-, -, -, shown⟩ := dryRun_eq_ok_iff.1 done
    exact shown ▸ e.workflow.litBy_highlight (some out.2)
  | clearDryRun => exact e.workflow.litBy_highlight none
  | _ => cases sets

/-- Highlights stay fresh unless the command goes along the history. -/
theorem Fresh.perform (fresh : e.Fresh) (noLight : c.BringsNoLight) (stays : c.isTravel = false)
    (ids : IdSource) : ((e.perform c).run ids).1.editor.Fresh := by
  cases sets : c.setsDryRun with
  | true => exact fresh.perform_of_setsDryRun noLight sets ids
  | false => exact (dims_perform noLight stays sets e ids).fresh fresh

/-! ## Whose path a canvas shows -/

/-- The dry runs whose paths the canvases of the history show, after a command. -/
def shownNext (e : Editor) (c : Command) (ids : IdSource) (shown : Timeline (Option Simulation)) :
    Timeline (Option Simulation) :=
  match c with
  | .undo => (shown.back? e.limits.history).getD shown
  | .redo => (shown.forth? e.limits.history).getD shown
  | .load _ false _ => { present := none }
  | .load _ true _ | .clearDryRun => shown.replace none
  | .dryRun context rolls =>
      match e.dryRun context rolls with
      | .ok (_, s) => shown.replace (some s)
      | .error _ => shown
  | _ => if e.makesChange c ids then shown.record e.limits.history shown.present else shown

/-- The dry runs whose paths the canvases of the history show, when all commands have been carried out. -/
def shownAfter (e : Editor) (shown : Timeline (Option Simulation)) :
    List Command → IdSource → Timeline (Option Simulation)
  | [], _ => shown
  | c :: cs, ids =>
      let out := (e.perform c).run ids
      out.1.editor.shownAfter (e.shownNext c ids shown) cs out.2

/-- Every canvas of the history has at most the path of its dry run highlighted. -/
def ShowsPaths (e : Editor) (shown : Timeline (Option Simulation)) : Prop :=
  e.timeline.Pairs (fun canvas s => canvas.workflow.LitBy s) shown

variable {shown : Timeline (Option Simulation)}

/-- An edit records the canvas or puts another one in its place, and either shows no more of the path. -/
theorem ShowsPaths.edit (h : e.ShowsPaths shown) (noLight : c.BringsNoLight) (stays : c.isTravel = false)
    (keeps : c.setsDryRun = false) (ids : IdSource) :
    ((e.perform c).run ids).1.editor.ShowsPaths
      (if e.makesChange c ids then shown.record e.limits.history shown.present else shown) := by
  have lit : ((e.perform c).run ids).1.editor.workflow.LitBy shown.present :=
    (dims_perform noLight stays keeps e ids).workflow.litBy h.present
  by_cases tracked : c.isTracked = true
  · rcases records_perform tracked e ids with same | ⟨w, s, same⟩
    · have unchanged : e.makesChange c ids = false := by simp [makesChange, same]
      rw [unchanged, same]
      exact h
    · have changed : e.makesChange c ids = true := by simp [makesChange, tracked, same, record]
      rw [same] at lit
      rw [changed, same]
      exact h.record lit _
  · have kept : c.keepsHistory = true := by
      cases c with
      | load | undo | redo => simp [Command.setsDryRun, Command.isTravel] at keeps stays
      | _ => rfl
    have unchanged : e.makesChange c ids = false := by simp [makesChange, tracked]
    obtain ⟨-, canvas, same⟩ := shows_perform (Bool.eq_false_iff.2 tracked) kept e ids
    rw [workflow, same] at lit
    rw [unchanged, ShowsPaths, same]
    exact h.replace lit

theorem showsPaths_ofStep (h : e.ShowsPaths shown) {canvases : Option (Timeline Canvas)}
    {runs : Option (Timeline (Option Simulation))}
    (pairs : Option.Rel (Timeline.Pairs fun canvas s => canvas.workflow.LitBy s) canvases runs) :
    (Outcome.ofStep e (canvases.map fun timeline =>
      { e with timeline, dirty := true, revision := e.revision + 1 })).editor.ShowsPaths
        (runs.getD shown) := by
  cases pairs with
  | none => exact h
  | some pairs => exact pairs

theorem ShowsPaths.perform (h : e.ShowsPaths shown) (noLight : c.BringsNoLight) (ids : IdSource) :
    ((e.perform c).run ids).1.editor.ShowsPaths (e.shownNext c ids shown) := by
  cases c with
  | undo => exact showsPaths_ofStep h (h.back _)
  | redo => exact showsPaths_ofStep h (h.forth _)
  | load w keepHistory markDirty =>
    have dark : w.LitBy none := Workflow.Dark.litBy noLight none
    cases keepHistory with
    | true => exact h.replace dark
    | false => exact ⟨dark, .nil, .nil⟩
  | dryRun context rolls =>
    show (Outcome.ofChange e .simulation (e.dryRun context rolls)).editor.ShowsPaths
      (match e.dryRun context rolls with
        | .ok (_, s) => shown.replace (some s)
        | .error _ => shown)
    cases done : e.dryRun context rolls with
    | error refusal => exact h
    | ok out =>
      obtain ⟨-, -, -, showsRun⟩ := dryRun_eq_ok_iff.1 done
      show out.1.ShowsPaths (shown.replace (some out.2))
      rw [← showsRun]
      exact h.replace (e.workflow.litBy_highlight (some out.2))
  | clearDryRun => exact h.replace (e.workflow.litBy_highlight none)
  | _ => exact h.edit noLight rfl rfl ids

theorem ShowsPaths.afterAll (h : e.ShowsPaths shown) (noLight : ∀ c ∈ cs, c.BringsNoLight)
    (ids : IdSource) : ((e.afterAll cs).run ids).1.ShowsPaths (e.shownAfter shown cs ids) := by
  induction cs generalizing e shown ids with
  | nil => exact h
  | cons c cs ih =>
    obtain ⟨first, rest⟩ := List.forall_mem_cons.1 noLight
    rw [run_afterAll_cons]
    exact ih (h.perform first ids) rest _

/-- Where highlights are fresh at first and whenever the session has gone along the history, they always
are. -/
theorem Fresh.performAll (fresh : e.Fresh) (noLight : ∀ c ∈ cs, c.BringsNoLight) (ids : IdSource)
    (travels : ∀ p ∈ cs.zip ((e.performAll cs).run ids).1, p.1.isTravel = true → p.2.editor.Fresh) :
    ∀ o ∈ ((e.performAll cs).run ids).1, o.editor.Fresh := by
  induction cs generalizing e ids with
  | nil => exact fun _ mem => absurd mem List.not_mem_nil
  | cons c cs ih =>
    obtain ⟨first, rest⟩ := List.forall_mem_cons.1 noLight
    rw [run_performAll_cons, List.zip_cons_cons] at travels
    obtain ⟨travel, later⟩ := List.forall_mem_cons.1 travels
    have next : ((e.perform c).run ids).1.editor.Fresh := by
      cases stays : c.isTravel with
      | true => exact travel stays
      | false => exact fresh.perform first stays ids
    rw [run_performAll_cons]
    exact List.forall_mem_cons.2 ⟨next, ih next rest _ later⟩

/-- In a session that begins with no edge highlighted and brings none along, highlights are fresh after every
command exactly if they are after every undo and redo: no other command leaves a highlight behind.  And
whatever is undone and redone, only edges are highlighted that belong to the dry run whose path the canvas
shows. -/
theorem fresh_performAll_iff (w : Workflow) (dark : w.Dark) (limits : Limits) (cs : List Command)
    (noLight : ∀ c ∈ cs, c.BringsNoLight) (ids : IdSource) :
    let start := ofWorkflow w limits
    let outcomes := ((start.performAll cs).run ids).1
    ((∀ o ∈ outcomes, o.editor.Fresh) ↔
        ∀ p ∈ cs.zip outcomes, p.1.isTravel = true → p.2.editor.Fresh)
      ∧ ((start.afterAll cs).run ids).1.workflow.LitBy
          (start.shownAfter { present := none } cs ids).present := by
  intro start outcomes
  have fresh : start.Fresh := dark.litBy none
  have paths : start.ShowsPaths { present := none } := ⟨dark.litBy none, .nil, .nil⟩
  refine ⟨⟨fun all p mem _ => all p.2 (List.of_mem_zip mem).2, fresh.performAll noLight ids⟩, ?_⟩
  exact (paths.afterAll noLight ids).present

/-- A dry run, a new name for the workflow, and back and forth again. -/
def renamedOnce : List Command :=
  [.dryRun [] fun _ => 0.0, .describe (some "one") .null none, .undo, .redo]

/-- The dry run is held all the while, and so its path may be shown. -/
theorem fresh_performAll_iff_renamedOnce :
    Workflow.forked.Dark
      ∧ ∀ o ∈ (((ofWorkflow .forked).performAll renamedOnce).run .strokes).1, o.editor.Fresh := by
  have dark : Workflow.forked.Dark := by decide
  have noLight : ∀ c ∈ renamedOnce, c.BringsNoLight := by simp [renamedOnce, Command.BringsNoLight]
  refine ⟨dark, (fresh_performAll_iff .forked dark {} renamedOnce noLight .strokes).1.2 ?_⟩
  decide +kernel

/-- A dry run, a new name for the workflow, an end to the dry run, and back again. -/
def leftLit : List Command :=
  [.dryRun [] fun _ => 0.0, .describe (some "one") .null none, .clearDryRun, .undo]

/-- No dry run is held any more, and both edges are highlighted. -/
theorem not_fresh_afterAll_leftLit :
    let e := (((ofWorkflow .forked).afterAll leftLit).run .strokes).1
    Workflow.forked.Dark ∧ (∀ c ∈ leftLit, c.BringsNoLight) ∧ e.simulation = none
      ∧ e.workflow.edges.map (fun edge => (edge.id, edge.data.highlighted)) = [("e1", true), ("e2", true)]
      ∧ ¬ e.Fresh :=
  ⟨by decide, by simp [leftLit, Command.BringsNoLight], rfl, by decide +kernel, by decide +kernel⟩

end Editor

end Journey
