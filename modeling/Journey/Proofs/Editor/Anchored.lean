import Journey.Proofs.Editor.History

/-!
# Journey.Proofs.Editor.Anchored -- whatever is selected is there

An editor is anchored when everything selected is there, on its canvas and on every canvas that can come back
(`Editor.Anchored`).  There are three ways to keep it so.  A recorded change selects what it has just added, or
nothing, or keeps of the selection what is still there; a change that is not recorded keeps the identifiers of
all nodes and edges; and undo and redo bring a selection back together with its workflow.

Only two commands name what is to be selected, and where they name what is there, no session selects anything
else, whatever is refused in it (`anchored_afterAll`).
-/

namespace Journey

set_option autoImplicit false

variable {ids : IdSource} {e f : Editor} {w v : Workflow} {s : Selection} {id : String}

/-! ## Selections -/

namespace Selection

theorem isIn_empty (w : Workflow) : IsIn w {} := ⟨nofun, nofun⟩

theorem isIn_node (there : id ∈ w.nodeIds) : IsIn w (node id) :=
  ⟨List.forall_mem_singleton.2 there, nofun⟩

theorem isIn_edge (there : id ∈ w.edgeIds) : IsIn w (edge id) :=
  ⟨nofun, List.forall_mem_singleton.2 there⟩

/-- What is selected is there as long as the identifiers stay. -/
theorem IsIn.congr (h : s.IsIn w) (nodes : v.nodeIds = w.nodeIds) (edges : v.edgeIds = w.edgeIds) :
    s.IsIn v := by
  rw [IsIn, nodes, edges]
  exact h

end Selection

theorem Workflow.id_mem_addNode (w : Workflow) (n : Node) : n.id ∈ (w.addNode n).nodeIds :=
  List.mem_map_of_mem (List.mem_append_right _ List.mem_cons_self)

theorem Workflow.id_mem_addEdge (w : Workflow) (edge : Edge) : edge.id ∈ (w.addEdge edge).edgeIds :=
  List.mem_map_of_mem (List.mem_append_right _ List.mem_cons_self)

namespace Editor

/-- Everything selected is there, on every canvas that is there or can come back. -/
def Anchored (e : Editor) : Prop := e.timeline.All fun c => c.selection.IsIn c.workflow

theorem anchored_ofWorkflow (w : Workflow) (limits : Limits) : (ofWorkflow w limits).Anchored :=
  ⟨Selection.isIn_empty w, nofun, nofun⟩

/-! ## The ways to take another workflow -/

namespace Anchored

theorem selection (h : e.Anchored) : e.selection.IsIn e.workflow := h.present

/-- Of the selection stays what is there. -/
theorem prune (h : e.Anchored) (w : Workflow) : (e.record w).Anchored :=
  Timeline.All.record h (selection_record e w)

theorem choose (h : e.Anchored) (there : s.IsIn w) : (e.record w (some s)).Anchored :=
  Timeline.All.record h there

theorem touch (h : e.Anchored) (nodes : w.nodeIds = e.workflow.nodeIds)
    (edges : w.edgeIds = e.workflow.edgeIds) : (e.touch w).Anchored :=
  Timeline.All.replace h (h.selection.congr nodes edges)

theorem repaint (h : e.Anchored) (nodes : w.nodeIds = e.workflow.nodeIds)
    (edges : w.edgeIds = e.workflow.edgeIds) : (e.repaint w).Anchored :=
  Timeline.All.replace h (h.selection.congr nodes edges)

theorem select (h : e.Anchored) (there : s.IsIn e.workflow) : (e.select s).Anchored :=
  holds_select h (Timeline.All.replace h there)

theorem load (h : e.Anchored) (w : Workflow) (keepHistory markDirty : Bool) :
    (e.load w keepHistory markDirty).Anchored := by
  have replaced : (e.timeline.replace { workflow := w }).All fun c => c.selection.IsIn c.workflow :=
    Timeline.All.replace h (Selection.isIn_empty w)
  cases keepHistory with
  | true => exact replaced
  | false => exact replaced.forget

theorem undo (h : e.Anchored) (undone : e.undo? = some f) : f.Anchored := by
  obtain ⟨t, back, rfl⟩ := Option.map_eq_some_iff.1 undone
  exact Timeline.All.back h back

theorem redo (h : e.Anchored) (redone : e.redo? = some f) : f.Anchored := by
  obtain ⟨t, forth, rfl⟩ := Option.map_eq_some_iff.1 redone
  exact Timeline.All.forth h forth

/-! ## Blocks -/

theorem describe (h : e.Anchored) {name : Option String} {status : Document} {version : Option Int}
    (done : e.describe name status version = .ok f) : f.Anchored := by
  obtain ⟨s, -, rfl⟩ := describe_eq_ok_iff.1 done
  exact h.prune _

theorem addNode (h : e.Anchored) {n : Node} {out : Editor × Node} (done : e.addNode n = .ok out) :
    out.1.Anchored := by
  obtain ⟨-, -, record, -⟩ := addNode_eq_ok_iff.1 done
  exact record ▸ h.choose (Selection.isIn_node (e.workflow.id_mem_addNode n))

theorem patchNode (h : e.Anchored) {patch : Fields} {out : Editor × Node}
    (done : e.patchNode id patch = .ok out) : out.1.Anchored := by
  obtain ⟨-, -, record⟩ := patchNode_eq_ok_iff.1 done
  exact record ▸ h.prune _

theorem patchConfig (h : e.Anchored) {patch : Fields} {out : Editor × Node}
    (done : e.patchConfig id patch = .ok out) : out.1.Anchored := by
  obtain ⟨n, -, ⟨c, -, -, follow⟩ | ⟨-, config, -, record, -⟩⟩ := patchConfig_eq_ok_iff.1 done
  · exact congrArg Prod.fst follow ▸ h.prune _
  · exact record ▸ h.prune _

theorem moveNode (h : e.Anchored) {position : Document} (done : e.moveNode id position = .ok f) :
    f.Anchored := by
  obtain ⟨n, place, -, -, rfl⟩ := moveNode_eq_ok_iff.1 done
  split
  · exact h
  · exact h.touch (Workflow.nodeIds_congr (Workflow.map_replaceFirst Node.face fun _ _ => rfl)) rfl

theorem removeNode (h : e.Anchored) (done : e.removeNode id = .ok f) : f.Anchored := by
  obtain ⟨-, rfl⟩ := removeNode_eq_ok_iff.1 done
  exact h.prune _

theorem removeSelection (h : e.Anchored) : e.removeSelection.Anchored :=
  holds_removeSelection h (h.choose (Selection.isIn_empty _))

/-- A batch with a removal is recorded; one without leaves all identifiers, however far it comes. -/
theorem applyNodeChanges (h : e.Anchored) (changes : List NodeChange) :
    (e.applyNodeChanges changes).1.Anchored := by
  have keeps := NodeChange.keeps_applyAll { workflow := e.workflow } changes
  have edges : (NodeChange.applyAll { workflow := e.workflow } changes).workflow.edgeIds
      = e.workflow.edgeIds := by
    rw [Workflow.edgeIds, keeps.edges, Workflow.edgeIds]
  have nodes (moves : changes.any (·.isRemoval) = false) := Workflow.nodeIds_congr (keeps.same moves)
  refine holds_applyNodeChanges h (fun _ => h.prune _) (fun moves => ?_) fun moves _ => ?_
  · exact h.touch (nodes moves) edges
  · exact h.repaint (nodes moves) edges

theorem returns_addNew (h : e.Anchored) (r : NodeRequest) :
    (e.addNew r).Returns fun out => out.1.Anchored :=
  .bind fun _ => Edit.returns_of fun _ => h.addNode

theorem returns_addNewOf (h : e.Anchored) (kind : Document) (position : Fields) (title : Document)
    (config : Option Document) :
    (e.addNewOf kind position title config).Returns fun out => out.1.Anchored :=
  .bind fun _ => h.returns_addNew _

/-! ## Edges -/

theorem addEdge (h : e.Anchored) {edge : Edge} {out : Editor × Edge} (done : e.addEdge edge = .ok out) :
    out.1.Anchored := by
  obtain ⟨-, -, -, record⟩ := addEdge_eq_ok_iff.1 done
  exact record ▸ h.choose (Selection.isIn_edge (e.workflow.id_mem_addEdge _))

theorem removeEdge (h : e.Anchored) (done : e.removeEdge id = .ok f) : f.Anchored := by
  obtain ⟨-, rfl⟩ := removeEdge_eq_ok_iff.1 done
  exact h.prune _

theorem applyEdgeChanges (h : e.Anchored) (removed : List String) :
    (e.applyEdgeChanges removed).Anchored :=
  holds_applyEdgeChanges h (h.prune _)

theorem returns_connect (h : e.Anchored) (c : Connection) :
    (e.connect c).Returns fun out => out.1.Anchored :=
  .bind fun edge => Edit.returns_pure (h.choose (Selection.isIn_edge (e.workflow.id_mem_addEdge edge)))

theorem returns_reconnect (h : e.Anchored) (id : String) (c : Connection) :
    (e.reconnect id c).Returns fun out => out.1.Anchored :=
  .bind fun _ => .bind fun edge => Edit.returns_pure
    (h.choose (Selection.isIn_edge ((e.workflow.withoutEdges [id]).id_mem_addEdge edge)))

/-! ## Copies, insertions and dry runs -/

theorem copy (h : e.Anchored) : e.copy.1.Anchored := holds_copy h h

theorem insert (h : e.Anchored) (c : Clip) : (e.insert c).Anchored := by
  refine h.choose ⟨fun id mem => ?_, fun id mem => ?_⟩
  · rw [Workflow.nodeIds, List.map_append]
    exact List.mem_append_right _ mem
  · rw [Workflow.edgeIds, List.map_append]
    exact List.mem_append_right _ mem

theorem paste (h : e.Anchored) (ids : IdSource) : (e.paste.run ids).1.1.Anchored :=
  holds_paste h fun _ _ => h.insert _

end Anchored

theorem nodes_connectIfAllowed (c : Connection) (w : Workflow) (ids : IdSource) :
    ((connectIfAllowed c w).run ids).1.nodes = w.nodes := by
  unfold connectIfAllowed
  split <;> rfl

/-- A block that is put into an edge is the last of the workflow afterwards. -/
theorem returns_splice (w : Workflow) (n : Node) (source : String) (handle : Option String) :
    (splice w n source handle).Returns fun v => v.nodes = w.nodes ++ [n] := by
  unfold splice
  generalize (w.edges.find? fun edge => edge.leaves source handle) = displaced
  refine .bind fun edge => ?_
  cases displaced with
  | none => exact Edit.returns_pure rfl
  | some displaced =>
    dsimp only
    split
    · refine .bind fun _ ids v done => ?_
      cases done
      exact nodes_connectIfAllowed _ _ ids
    · exact Edit.returns_pure rfl

theorem nodeIds_laidOut (e : Editor) (w : Workflow) : (e.laidOut w).nodeIds = w.nodeIds :=
  Workflow.nodeIds_congr (Workflow.map_face_layout w _ _)

theorem Anchored.returns_insertAfter (h : e.Anchored) (source : String) (handle : Option String)
    (kind title : Document) (config : Option Document) :
    (e.insertAfter source handle kind title config).Returns fun out => out.1.Anchored := by
  refine returns_insertAfter_of fun n _ ids v done => ?_
  have last : n.id ∈ v.nodeIds := by
    rw [Workflow.nodeIds, returns_splice e.workflow n source handle ids v done]
    exact e.workflow.id_mem_addNode n
  exact h.choose (Selection.isIn_node (e.nodeIds_laidOut v ▸ last))

theorem Anchored.highlight (h : e.Anchored) (edges : List String) : (e.highlight edges).Anchored :=
  h.repaint rfl (e.workflow.edgeIds_highlight edges)

theorem Anchored.autoLayout (h : e.Anchored) {f : Editor} (done : e.autoLayout = .ok f) : f.Anchored := by
  obtain ⟨-, rfl⟩ := autoLayout_eq_ok_iff.1 done
  exact h.prune _

theorem Anchored.dryRun (h : e.Anchored) {context : Fields} {rolls : Nat → Float}
    {out : Editor × Simulation} (done : e.dryRun context rolls = .ok out) : out.1.Anchored := by
  obtain ⟨-, -, -, shown⟩ := dryRun_eq_ok_iff.1 done
  exact shown ▸ Anchored.highlight (e := { e with simulation := _ }) h _

theorem Anchored.save (h : e.Anchored) {store : SaveSnapshot → Except String Unit} {now : Instant}
    {out : Editor × SaveSnapshot} (done : e.save store now = .ok out) : out.1.Anchored := by
  obtain ⟨-, -, saved⟩ := save_eq_ok_iff.1 done
  exact saved ▸ h

end Editor

/-! ## Sessions -/

/-- What a command names to be selected is there, in the workflow that it is selected of. -/
def Command.NamesPresent (w : Workflow) : Command → Prop
  | .select s => s.IsIn w
  | .replace v s => s.IsIn v
  | _ => True

/-- Every command of a session names what is there when its turn comes. -/
def Editor.NamesPresent (e : Editor) : List Command → IdSource → Prop
  | [], _ => True
  | c :: cs, ids =>
      c.NamesPresent e.workflow
        ∧ ((e.perform c).run ids).1.editor.NamesPresent cs ((e.perform c).run ids).2

namespace Editor

theorem anchored_ofStep (h : e.Anchored) {x : Option Editor} (step : ∀ f, x = some f → f.Anchored) :
    (Outcome.ofStep e x).editor.Anchored := by
  cases x with
  | none => exact h
  | some f => exact step f rfl

/-- A command that names what is there keeps an editor anchored, whether it is refused or not. -/
theorem Anchored.perform (h : e.Anchored) {c : Command} (named : c.NamesPresent e.workflow)
    (ids : IdSource) : ((e.perform c).run ids).1.editor.Anchored := by
  cases c with
  | load w keepHistory markDirty => exact h.load w keepHistory markDirty
  | replace w selection => exact h.choose named
  | describe name status version => exact Outcome.holds_ofDone h fun _ => h.describe
  | select selection => exact h.select named
  | addNew kind position title config =>
    exact Outcome.holds_ofEdit (e.addNewOf kind position title config) h
      (h.returns_addNewOf kind position title config)
  | addNode n => exact Outcome.holds_ofChange h fun _ => h.addNode
  | patchNode id patch => exact Outcome.holds_ofChange h fun _ => h.patchNode
  | patchConfig id patch => exact Outcome.holds_ofChange h fun _ => h.patchConfig
  | moveNode id position => exact Outcome.holds_ofDone h fun _ => h.moveNode
  | removeNode id => exact Outcome.holds_ofDone h fun _ => h.removeNode
  | connect c => exact Outcome.holds_ofEdit (e.connect c) h (h.returns_connect c)
  | addEdge edge => exact Outcome.holds_ofChange h fun _ => h.addEdge
  | reconnect id c => exact Outcome.holds_ofEdit (e.reconnect id c) h (h.returns_reconnect id c)
  | removeEdge id => exact Outcome.holds_ofDone h fun _ => h.removeEdge
  | removeSelection => exact h.removeSelection
  | applyNodeChanges changes => exact h.applyNodeChanges changes
  | applyEdgeChanges removed => exact h.applyEdgeChanges removed
  | copy => exact h.copy
  | paste => exact h.paste ids
  | undo => exact anchored_ofStep h fun _ => h.undo
  | redo => exact anchored_ofStep h fun _ => h.redo
  | autoLayout => exact Outcome.holds_ofDone h fun _ => h.autoLayout
  | insertAfter source handle kind title config =>
    exact Outcome.holds_ofEdit (e.insertAfter source handle kind title config) h
      (h.returns_insertAfter source handle kind title config)
  | dryRun context rolls => exact Outcome.holds_ofChange h fun _ => h.dryRun
  | clearDryRun => exact Anchored.highlight (e := { e with simulation := none }) h []
  | highlight edges => exact h.highlight edges
  | clearHighlight => exact h.highlight []
  | snapshot => exact h
  | save store => exact Outcome.holds_ofChange h fun _ => h.save
  | markSaved => exact h

theorem Anchored.afterAll (h : e.Anchored) {cs : List Command} (named : e.NamesPresent cs ids) :
    ((e.afterAll cs).run ids).1.Anchored := by
  induction cs generalizing e ids with
  | nil => exact h
  | cons c cs ih =>
    obtain ⟨now, afterwards⟩ := named
    rw [run_afterAll_cons]
    exact ih (h.perform now ids) afterwards

/-- In every session whose commands name what is there, everything selected is there at any time, on the
canvas that is present and on each one that can be brought back. -/
theorem anchored_afterAll (w : Workflow) (limits : Limits) {cs : List Command}
    (named : (ofWorkflow w limits).NamesPresent cs ids) :
    let e := (((ofWorkflow w limits).afterAll cs).run ids).1
    ∀ canvas ∈ e.timeline.present :: (e.timeline.past ++ e.timeline.future),
      (∀ id ∈ canvas.selection.nodes, id ∈ canvas.workflow.nodeIds)
        ∧ ∀ id ∈ canvas.selection.edges, id ∈ canvas.workflow.edgeIds := by
  intro e canvas mem
  have kept : e.Anchored := (anchored_ofWorkflow w limits).afterAll named
  rcases List.mem_cons.1 mem with rfl | history
  · exact kept.present
  · rcases List.mem_append.1 history with before | after
    · exact kept.past canvas before
    · exact kept.future canvas after

/-- A selected block that is removed, with a second attempt that is refused, and brought back. -/
def broughtBack : List Command :=
  [.select { nodes := ["c"], edges := ["e2"] }, .removeNode "c", .removeNode "c", .undo]

/-- The block and its edge are brought back with their workflow, so they are there where they are selected. -/
theorem anchored_afterAll_broughtBack :
    let e := (((ofWorkflow .forked).afterAll broughtBack).run .strokes).1
    (ofWorkflow .forked).NamesPresent broughtBack .strokes
      ∧ e.selection = { nodes := ["c"], edges := ["e2"] }
      ∧ "c" ∈ e.workflow.nodeIds ∧ "e2" ∈ e.workflow.edgeIds := by
  intro e
  have named : (ofWorkflow .forked).NamesPresent broughtBack .strokes := by
    refine ⟨?_, trivial, trivial, trivial, trivial⟩
    exact ⟨by decide, by decide⟩
  have selected : e.selection = { nodes := ["c"], edges := ["e2"] } := by decide +kernel
  obtain ⟨nodes, edges⟩ := anchored_afterAll .forked {} named e.timeline.present List.mem_cons_self
  refine ⟨named, selected, nodes "c" ?_, edges "e2" ?_⟩
  · show "c" ∈ e.selection.nodes
    exact selected ▸ List.mem_cons_self
  · show "e2" ∈ e.selection.edges
    exact selected ▸ List.mem_cons_self

end Editor

end Journey
