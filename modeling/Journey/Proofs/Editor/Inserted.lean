import Journey.Proofs.Editor.Sessions
import Journey.Proofs.Graph.Published
import Journey.Proofs.Runner.Traced

/-!
# Journey.Proofs.Editor.Inserted -- what becomes of the way on when a block is inserted

A block is inserted into the first edge that leaves a node on a handle.  The edge is taken out, an edge on
the same handle leads to the block, and one edge should lead from the block to where the old one led.  That
edge is asked for on the plain handle, whatever the kind of the block.  Every other rule allows it: the block
is new, so nothing leaves it yet, and the place that the old edge had is free (`LedIn.check_leadOut_iff`).  But
blocks with branches have no plain handle, and then the way on is left out.

So what followed stays attached exactly if the block passes on by the plain handle
(`NodeKind.passesOn`).  Otherwise everything stays reached only if the source was not reached before, or if
another way leads to the old target; nothing but an exit has one (`reached_without_iff`).  Main statement:
`inserted_insertAfter`; `not_attached_insertAfter_condition` cuts a workflow off at its trigger.
-/

namespace Journey

set_option autoImplicit false

/-! ## Paths without an edge -/

namespace Paths

variable {edges more before after : List Edge} {old e : Edge} {a b t : String}

/-- A path over edges in whose places there are paths. -/
theorem Leads.through (each : ∀ e ∈ edges, Leads more e.source e.target) (h : Leads edges a b) :
    Leads more a b := by
  induction h with
  | here a => exact .here a
  | step mem _ ih => exact (each _ mem).trans ih

/-- A path over an edge to a point that nothing leaves ends there, or does without the edge. -/
theorem Leads.avoid_last (last : ∀ f ∈ edges, f.source ≠ e.target) (other : b ≠ e.target)
    (h : Leads (edges ++ [e]) a b) : Leads edges a b := by
  rcases h.cross with direct | ⟨-, onward⟩
  · exact direct
  · rcases onward.first with same | ⟨f, mem, source⟩
    · exact absurd same.symm other
    · exact absurd source (last f mem)

theorem leads_of_rest (h : Leads (before ++ after) a b) : Leads (before ++ old :: after) a b :=
  h.mono fun _ mem => ((List.sublist_cons_self old after).append_left before).subset mem

/-- A path does without an edge, or is cut in two by it. -/
theorem Leads.cut (h : Leads (before ++ old :: after) a b) :
    Leads (before ++ after) a b
      ∨ (Leads (before ++ after) a old.source ∧ Leads (before ++ after) old.target b) := by
  have last : (before ++ old :: after).Perm (before ++ after ++ [old]) :=
    List.perm_middle.trans (List.perm_append_singleton old (before ++ after)).symm
  exact Leads.cross (h.mono fun _ mem => last.subset mem)

/-- Everything is reached without an edge that was reached with it exactly if the edge was not reached, or
another edge from a point that was reached leads to where it led. -/
theorem reached_without_iff (acyclic : Acyclic (before ++ old :: after)) (start : t ≠ old.target) :
    (∀ id, Leads (before ++ old :: after) t id → Leads (before ++ after) t id)
      ↔ ¬ Leads (before ++ old :: after) t old.source
        ∨ ∃ x ∈ before ++ after, x.target = old.target ∧ Leads (before ++ old :: after) t x.source := by
  have here : old ∈ before ++ old :: after := by simp
  constructor
  · intro stays
    by_cases reached : Leads (before ++ old :: after) t old.source
    · have target := stays old.target (reached.trans (.step here (.here _)))
      rcases target.last with same | ⟨x, mem, same, path⟩
      · exact absurd same start
      · exact .inr ⟨x, mem, same, leads_of_rest path⟩
    · exact .inl reached
  · rintro (apart | ⟨x, mem, same, reached⟩) id path
    · rcases path.cut with direct | ⟨source, -⟩
      · exact direct
      · exact absurd (leads_of_rest source) apart
    · have widely : x ∈ before ++ old :: after := ((List.sublist_cons_self old after).append_left before).subset mem
      -- no way to the other edge leads over this one, since that would close a loop
      have source : Leads (before ++ after) t x.source := by
        rcases reached.cut with direct | ⟨-, onward⟩
        · exact direct
        · exact absurd (leads_of_rest (same ▸ onward)) (acyclic x widely)
      have target : Leads (before ++ after) t old.target := source.trans (same ▸ .step mem (.here _))
      rcases path.cut with direct | ⟨-, onward⟩
      · exact direct
      · exact target.trans onward

end Paths

/-! ## The plain handle -/

/-- Whether edges leave blocks of the kind by the plain handle: there are handles, and they are no branches. -/
def NodeKind.passesOn (k : NodeKind) : Bool := k.hasOutput && !Workflow.branches k

theorem NodeKind.hasOutput_iff (k : NodeKind) : k.hasOutput = true ↔ k ≠ .exit := by
  cases k <;> decide

/-- Blocks with branches have no plain handle, all others have. -/
theorem Config.offers_plainHandle_iff {c : Config} (canonical : c.Canonical) :
    c.Offers plainHandle ↔ Workflow.branches c.kind = false := by
  cases c with
  | condition c =>
    refine iff_of_false (fun offers => ?_) fun plain => by cases plain
    rcases (ConditionConfig.Canonical.offers_iff canonical).1 offers with clause | last
    · rcases canonical.handles.known clause with first | ⟨k, -, later⟩
      · exact absurd first (by decide)
      · exact Handle.elseIf_ne_of_head? (by decide) k later.symm
    · exact absurd last (by decide)
  | split c => exact iff_of_false (by decide : plainHandle ∉ splitHandles) fun plain => by cases plain
  | _ => exact iff_of_true trivial rfl

/-! ## Granted edges -/

variable {ids after : IdSource} {w v : Workflow} {n : Node} {source handle : String} {old lead : Edge}
  {before behind : List Edge}

/-- An edge stands between the ends that are asked for, on the handle that is asked for. -/
structure Connection.Meets (c : Connection) (edge : Edge) : Prop where
  source : c.source = some edge.source
  target : c.target = some edge.target
  door : edge.door = c.sourceHandle.getD ""

theorem Connection.meets_of_check {c : Connection} {nodes : List Node} {edges : List Edge} {granted : Edge}
    (h : c.check nodes edges = .ok granted) (ids : IdSource) : c.Meets (granted.identify.run ids).1 := by
  rw [Edge.run_identify (id_of_check h)]
  obtain ⟨⟨source, target⟩, handle, -⟩ := edge_of_check h
  refine ⟨source, target, ?_⟩
  show granted.sourceHandle.getD "" = _
  rw [handle, door_given]

theorem Connection.later_of_check {c : Connection} {nodes : List Node} {edges : List Edge} {granted : Edge}
    (h : c.check nodes edges = .ok granted) (ids : IdSource) : ids.Later (granted.identify.run ids).2 := by
  rw [Edge.run_identify (id_of_check h)]
  exact ids.later_next

theorem Connection.yields_meets (c : Connection) (nodes : List Node) (edges : List Edge) (ids : IdSource) :
    (c.draw nodes edges).Yields ids fun _ edge => c.Meets edge := by
  unfold draw connect
  refine Edit.Yields.after ?_ _
  cases checked : c.check nodes edges with
  | error reason => exact Edit.yields_throw _
  | ok granted => exact Edit.yields_liftM (later_of_check checked ids) (meets_of_check checked ids)

namespace Editor

theorem later_connectIfAllowed (c : Connection) (w : Workflow) (ids : IdSource) :
    ids.Later ((connectIfAllowed c w).run ids).2 := by
  unfold connectIfAllowed Connection.connect
  cases checked : c.check w.nodes w.edges with
  | error reason => exact .refl ids
  | ok granted => exact Connection.later_of_check checked ids

/-- A connection that may be left out is made exactly if it is granted. -/
theorem run_connectIfAllowed (c : Connection) (w : Workflow) (ids : IdSource) :
    ((∃ f, c.check w.nodes w.edges = .ok f)
        ∧ ∃ x, c.Meets x ∧ ((connectIfAllowed c w).run ids).1 = w.addEdge x)
      ∨ (¬ (∃ f, c.check w.nodes w.edges = .ok f) ∧ ((connectIfAllowed c w).run ids).1 = w) := by
  unfold connectIfAllowed Connection.connect
  cases checked : c.check w.nodes w.edges with
  | error reason => exact .inr ⟨by simp, rfl⟩
  | ok granted => exact .inl ⟨⟨granted, rfl⟩, _, Connection.meets_of_check checked ids, rfl⟩

end Editor

/-! ## A block in the place of an edge -/

namespace Workflow

/-- An edge is taken out where it stands. -/
theorem edges_withoutEdges_split (distinct : w.edgeIds.Nodup) (found : w.edges = before ++ old :: behind) :
    (w.withoutEdges [old.id]).edges = before ++ behind := by
  rw [edgeIds, found, List.map_append, List.map_cons, List.nodup_middle, List.nodup_cons,
    List.mem_append, not_or] at distinct
  obtain ⟨⟨notBefore, notBehind⟩, -⟩ := distinct
  have stays (es : List Edge) (other : old.id ∉ es.map (·.id)) :
      es.filter (fun e => !([old.id].contains e.id)) = es := by
    refine List.filter_eq_self.2 fun e mem => ?_
    have apart : e.id ≠ old.id := fun same => other (same ▸ List.mem_map_of_mem mem)
    simpa using apart
  rw [withoutEdges, found, List.filter_append, List.filter_cons, if_neg (by simp), stays _ notBefore,
    stays _ notBehind]

/-- A block is put into the first edge that leaves a node on a handle: the edge is taken out, the others stay
as they are, and an edge on the handle leads to the block.  The places of blocks do not matter. -/
structure LedIn (w v : Workflow) (n : Node) (source handle : String) (old lead : Edge)
    (before behind onward : List Edge) : Prop where
  found : w.edges = before ++ old :: behind
  leaves : old.leaves source (some handle) = true
  first : ∀ x ∈ before, x.leaves source (some handle) = false
  edges : v.edges = before ++ behind ++ [lead] ++ onward
  leadSource : lead.source = source
  leadTarget : lead.target = n.id
  leadDoor : lead.door = handle
  faces : v.nodes.map Node.face = w.nodes.map Node.face ++ [n.face]
  new : n.id ∉ w.nodeIds
  plain : n.isA .trigger = false

/-- One more edge leads from the block to where the old one led if the block passes on, and else none. -/
structure Spliced (w v : Workflow) (n : Node) (source handle : String) (old lead : Edge)
    (before behind onward : List Edge) : Prop
    extends LedIn w v n source handle old lead before behind onward where
  passes : n.kind.passesOn = true → ∃ x, onward = [x] ∧ x.source = n.id ∧ x.target = old.target
  stops : n.kind.passesOn = false → onward = []

namespace LedIn

variable {onward : List Edge}

theorem source_eq (h : w.LedIn v n source handle old lead before behind onward) : old.source = source := by
  have leaves := h.leaves
  rw [Edge.leaves, Bool.and_eq_true] at leaves
  simpa using leaves.1

theorem old_mem (h : w.LedIn v n source handle old lead before behind onward) : old ∈ w.edges := by
  simp [h.found]

theorem mem_of_rest (h : w.LedIn v n source handle old lead before behind onward) {x : Edge}
    (mem : x ∈ before ++ behind) : x ∈ w.edges :=
  h.found ▸ ((List.sublist_cons_self old behind).append_left before).subset mem

/-- The edges that stay are those that are not the old one. -/
theorem mem_rest_iff (h : w.LedIn v n source handle old lead before behind onward)
    (distinct : w.edgeIds.Nodup) {x : Edge} : x ∈ before ++ behind ↔ x ∈ w.edges ∧ x.id ≠ old.id := by
  rw [← edges_withoutEdges_split distinct h.found, withoutEdges, List.mem_filter]
  simp

/-- Nothing but a way on leaves the block. -/
theorem source_ne (h : w.LedIn v n source handle old lead before behind onward) (wellFormed : w.WellFormed)
    {x : Edge} (mem : x ∈ before ++ behind ++ [lead]) : x.source ≠ n.id := by
  intro same
  rcases List.mem_append.1 mem with rest | last
  · exact h.new (same ▸ (wellFormed.ends (h.mem_of_rest rest)).1)
  · rw [List.mem_singleton.1 last, h.leadSource, ← h.source_eq] at same
    exact h.new (same ▸ (wellFormed.ends h.old_mem).1)

theorem target_ne (h : w.LedIn v n source handle old lead before behind onward) (wellFormed : w.WellFormed) :
    n.id ≠ old.target := fun same => h.new (same ▸ (wellFormed.ends h.old_mem).2)

/-- The trigger is the one that was there. -/
theorem map_id_trigger? (h : w.LedIn v n source handle old lead before behind onward) :
    v.trigger?.map (·.id) = w.trigger?.map (·.id) := by
  have faces (nodes : List Node) : (nodes.find? (·.isA .trigger)).map (·.id)
      = ((nodes.map Node.face).find? fun f => f.2.kind == .trigger).map (·.1) := by
    rw [List.find?_map, Option.map_map]
    rfl
  have other : (n.face.2.kind == .trigger) = false := h.plain
  rw [trigger?, trigger?, faces, faces, h.faces, List.find?_append, List.find?_singleton, if_neg (by simp [other]),
    Option.or_none]

theorem addEdge (h : w.LedIn v n source handle old lead before behind []) (x : Edge) :
    w.LedIn (v.addEdge x) n source handle old lead before behind [x] :=
  { h with edges := by rw [Workflow.addEdge, h.edges, List.append_nil] }

/-! ## The way on -/

/-- The edge from the block to where the old one led, by the plain handle. -/
def wayOn (n : Node) (old : Edge) : Edge :=
  { id := "", source := n.id, target := old.target, sourceHandle := some plainHandle }

theorem settings?_eq (h : w.LedIn v n source handle old lead before behind onward) :
    settings? v.nodes = settings? (w.nodes ++ [n]) := by
  refine settings?_congr ?_
  rw [h.faces, List.map_append]
  rfl

theorem settings?_new (h : w.LedIn v n source handle old lead before behind onward) :
    settings? v.nodes n.id = some n.config := by
  rw [h.settings?_eq, settings?_append_right (by simp)]
  simp [settings?, indexed?]

theorem settings?_old (h : w.LedIn v n source handle old lead before behind onward) {id : String}
    (there : id ∈ w.nodeIds) : settings? v.nodes id = settings? w.nodes id := by
  rw [h.settings?_eq]
  exact settings?_append_left (by simpa [nodeIds] using h.new) there

/-- The way on fits between its nodes exactly if the block has a plain handle. -/
theorem fits_wayOn_iff (h : w.LedIn v n source handle old lead before behind onward)
    (wellFormed : w.WellFormed) (canonical : n.config.Canonical) :
    (wayOn n old).Fits (settings? v.nodes) ↔ n.kind.passesOn = true := by
  obtain ⟨_, t, -, target, -, notTrigger, -⟩ := wellFormed.sound.fits old h.old_mem
  have atTarget := (h.settings?_old (wellFormed.ends h.old_mem).2).trans target
  rw [Edge.fits_iff (e := wayOn n old) h.settings?_new atTarget, NodeKind.passesOn, Bool.and_eq_true,
    NodeKind.hasOutput_iff, Bool.not_eq_true']
  have offers : n.config.Offers (wayOn n old).door ↔ branches n.kind = false :=
    Config.offers_plainHandle_iff canonical
  rw [offers]
  constructor
  · rintro ⟨noExit, -, -, plain⟩
    exact ⟨noExit, plain⟩
  · rintro ⟨noExit, plain⟩
    exact ⟨noExit, notTrigger, h.target_ne wellFormed, plain⟩

/-- It stands apart from all other edges: nothing leaves the block, and beside the old edge only exits are
entered. -/
theorem apart_wayOn (h : w.LedIn v n source handle old lead before behind onward)
    (wellFormed : w.WellFormed) :
    ∀ f ∈ before ++ behind ++ [lead], f.Apart (settings? v.nodes) (wayOn n old) := by
  intro f mem
  have leaves := h.source_ne wellFormed mem
  refine ⟨⟨fun same => absurd same leaves, fun same => absurd same leaves⟩, fun same c there => ?_⟩
  have same : f.target = old.target := same
  rw [same, h.settings?_old (wellFormed.ends h.old_mem).2] at there
  have pairs := wellFormed.sound.apart
  rw [h.found, List.pairwise_append, List.pairwise_cons] at pairs
  obtain ⟨-, ⟨later, -⟩, across⟩ := pairs
  rcases List.mem_append.1 mem with rest | last
  · rcases List.mem_append.1 rest with inFirst | inLater
    · exact (across f inFirst old List.mem_cons_self).inputs same c (same ▸ there)
    · exact (later f inLater).inputs same.symm c there
  · rw [List.mem_singleton.1 last, h.leadTarget] at same
    exact absurd same (h.target_ne wellFormed)

/-- It closes no loop: the only way to the block is by the old source, and to that one there was none. -/
theorem not_leads_wayOn (h : w.LedIn v n source handle old lead before behind onward)
    (wellFormed : w.WellFormed) : ¬ Paths.Leads (before ++ behind ++ [lead]) old.target n.id := by
  intro loop
  rcases loop.cross with direct | ⟨back, -⟩
  · rcases direct.last with same | ⟨f, mem, same, -⟩
    · exact h.target_ne wellFormed same.symm
    · exact h.new (same ▸ (wellFormed.ends (h.mem_of_rest mem)).2)
  · rw [h.leadSource, ← h.source_eq] at back
    exact wellFormed.sound.acyclic old h.old_mem (h.found ▸ Paths.leads_of_rest back)

/-- The way on is granted exactly if the block passes on. -/
theorem check_leadOut_iff (h : w.LedIn v n source handle old lead before behind [])
    (wellFormed : w.WellFormed) (named : n.id ≠ "") (canonical : n.config.Canonical) :
    (∃ f, (Editor.leadOut n.id old).check v.nodes v.edges = .ok f) ↔ n.kind.passesOn = true := by
  have targetNamed : old.target ≠ "" := fun void =>
    wellFormed.named (void ▸ (wellFormed.ends h.old_mem).2)
  rw [Connection.check_eq_ok_iff (e := wayOn n old) rfl rfl rfl, ← h.fits_wayOn_iff wellFormed canonical,
    h.edges, List.append_nil]
  constructor
  · rintro ⟨-, fits, -⟩
    exact fits
  · intro fits
    exact ⟨⟨named, targetNamed⟩, fits, h.apart_wayOn wellFormed, h.not_leads_wayOn wellFormed⟩

/-- The way on is tried, and made exactly if the block passes on. -/
theorem spliced (h : w.LedIn v n source handle old lead before behind []) (wellFormed : w.WellFormed)
    (named : n.id ≠ "") (canonical : n.config.Canonical) (ids : IdSource) :
    ∃ onward, w.Spliced ((Editor.connectIfAllowed (Editor.leadOut n.id old) v).run ids).1 n source handle old
      lead before behind onward := by
  have granted := h.check_leadOut_iff wellFormed named canonical
  rcases Editor.run_connectIfAllowed (Editor.leadOut n.id old) v ids with ⟨ok, x, meets, run⟩ | ⟨refused, run⟩
  · rw [run]
    refine ⟨[x], h.addEdge x, fun _ => ⟨x, rfl, ?_, ?_⟩, fun stops => ?_⟩
    · exact (Option.some.inj meets.source).symm
    · exact (Option.some.inj meets.target).symm
    · rw [granted.1 ok] at stops
      cases stops
  · rw [run]
    exact ⟨[], h, fun passes => absurd (granted.2 passes) refused, fun _ => rfl⟩

end LedIn

/-! ## What is reached -/

variable {onward : List Edge}

/-- An edge from the block to the old target is there exactly if the block passes on. -/
theorem Spliced.attached_iff (h : w.Spliced v n source handle old lead before behind onward)
    (wellFormed : w.WellFormed) :
    (∃ x ∈ v.edges, x.source = n.id ∧ x.target = old.target) ↔ n.kind.passesOn = true := by
  constructor
  · rintro ⟨x, mem, leaves, -⟩
    rw [h.edges] at mem
    rcases List.mem_append.1 mem with rest | last
    · exact absurd leaves (h.source_ne wellFormed rest)
    · by_contra stops
      rw [h.stops (by simpa using stops)] at last
      cases last
  · intro passes
    obtain ⟨x, only, ends⟩ := h.passes passes
    exact ⟨x, by simp [h.edges, only], ends⟩

/-- Where the block passes on, every way leads on as before. -/
theorem Spliced.leads_of_passes (h : w.Spliced v n source handle old lead before behind onward)
    (passes : n.kind.passesOn = true) {a b : String} (path : Paths.Leads w.edges a b) :
    Paths.Leads v.edges a b := by
  obtain ⟨x, only, leaves, target⟩ := h.passes passes
  refine path.through fun e mem => ?_
  have kept {e : Edge} (there : e ∈ before ++ behind ++ [lead, x]) : e ∈ v.edges := by
    rw [h.edges, only, List.append_assoc, List.singleton_append]
    exact there
  rw [h.found, List.mem_append, List.mem_cons] at mem
  rcases mem with first | rfl | later
  · exact .step (kept (by simp [first])) (.here _)
  · have onto : Paths.Leads v.edges lead.source lead.target := .step (kept (by simp)) (.here _)
    have off : Paths.Leads v.edges x.source x.target := .step (kept (by simp)) (.here _)
    rw [h.leadSource, h.leadTarget] at onto
    rw [leaves, target] at off
    exact h.source_eq ▸ onto.trans off
  · exact .step (kept (by simp [later])) (.here _)

/-- Where it does not, the way to an old node is one without the old edge. -/
theorem Spliced.leads_iff_of_stops (h : w.Spliced v n source handle old lead before behind onward)
    (wellFormed : w.WellFormed) (stops : n.kind.passesOn = false) {a b : String} (there : b ∈ w.nodeIds) :
    Paths.Leads v.edges a b ↔ Paths.Leads (before ++ behind) a b := by
  have edges : v.edges = before ++ behind ++ [lead] := by rw [h.edges, h.stops stops, List.append_nil]
  rw [edges]
  constructor
  · refine Paths.Leads.avoid_last (fun f mem => ?_) fun same => ?_
    · rw [h.leadTarget]
      exact h.source_ne wellFormed (List.mem_append_left _ mem)
    · exact h.new (h.leadTarget ▸ same ▸ there)
  · exact fun path => path.mono fun e mem => List.mem_append_left _ mem

/-- No edge enters the trigger. -/
theorem WellFormed.target_ne_trigger (h : w.WellFormed) {t : Node} (trigger : w.trigger? = some t) {e : Edge}
    (mem : e ∈ w.edges) : t.id ≠ e.target := by
  intro entered
  obtain ⟨_, c, -, target, -, other, -⟩ := h.sound.fits e mem
  have there : t ∈ w.nodes := List.mem_of_find?_eq_some trigger
  rw [← entered, (settings?_eq_some_iff h.nodeIds).2 ⟨t, there, rfl, rfl⟩] at target
  have isTrigger : t.kind = .trigger := by simpa [Node.isA] using List.find?_some trigger
  exact other (Option.some.inj target ▸ isTrigger)

/-- Only nodes are reached from a node. -/
theorem WellFormed.mem_nodeIds_of_leads (h : w.WellFormed) {t : Node} (mem : t ∈ w.nodes) {id : String}
    (path : Paths.Leads w.edges t.id id) : id ∈ w.nodeIds := by
  rcases path.last with rfl | ⟨x, memX, rfl, -⟩
  · exact List.mem_map_of_mem mem
  · exact (h.ends memX).2

/-- Everything that was reached still is exactly if the block passes on, the old edge was not reached, or
something else leads to its target. -/
theorem Spliced.reachable_iff (h : w.Spliced v n source handle old lead before behind onward)
    (wellFormed : w.WellFormed) :
    (∀ id ∈ w.reachable, id ∈ v.reachable)
      ↔ n.kind.passesOn = true ∨ source ∉ w.reachable
        ∨ ∃ x ∈ w.edges, x.id ≠ old.id ∧ x.target = old.target ∧ x.source ∈ w.reachable := by
  have same := h.map_id_trigger?
  cases trigger : w.trigger? with
  | none => simp [reachable, trigger]
  | some t =>
    rw [trigger, Option.map_some, Option.map_eq_some_iff] at same
    obtain ⟨t', trigger', same⟩ := same
    have there {id : String} (path : Paths.Leads w.edges t.id id) : id ∈ w.nodeIds :=
      wellFormed.mem_nodeIds_of_leads (List.mem_of_find?_eq_some trigger) path
    have start := wellFormed.target_ne_trigger trigger h.old_mem
    simp only [mem_reachable_iff trigger, mem_reachable_iff trigger', same]
    cases passes : n.kind.passesOn with
    | true => exact iff_of_true (fun id path => h.leads_of_passes passes path) (.inl rfl)
    | false =>
      have without := Paths.reached_without_iff (h.found ▸ wellFormed.sound.acyclic) start
      rw [← h.found, h.source_eq] at without
      simp only [h.mem_rest_iff wellFormed.edgeIds, and_assoc] at without
      simp only [Bool.false_eq_true, false_or, ← without]
      refine forall_congr' fun id => ⟨fun stays path => ?_, fun stays path => ?_⟩
      · exact (h.leads_iff_of_stops wellFormed passes (there path)).1 (stays path)
      · exact (h.leads_iff_of_stops wellFormed passes (there path)).2 (stays path)

/-! ## Layouts -/

theorem LedIn.nodup (h : w.LedIn v n source handle old lead before behind onward) (distinct : w.nodeIds.Nodup) :
    v.nodeIds.Nodup := by
  rw [nodeIds, map_id_eq_faces, h.faces, List.map_append, ← map_id_eq_faces, List.nodup_append]
  refine ⟨distinct, List.nodup_singleton _, fun a there b last same => h.new ?_⟩
  rw [List.map_singleton, List.mem_singleton] at last
  exact (same.trans last : a = n.id) ▸ there

/-- The block is found under its identifier, wherever it stands. -/
theorem face_node? (distinct : v.nodeIds.Nodup) (mem : n.face ∈ v.nodes.map Node.face) :
    ((v.node? n.id).getD n).face = n.face := by
  obtain ⟨m, memM, same⟩ := List.mem_map.1 mem
  have name : m.id = n.id := congrArg Prod.fst same
  rw [← name, node?_of_mem distinct memM, Option.getD_some, same]

/-- Only the faces of nodes matter. -/
theorem Spliced.congr (h : w.Spliced v n source handle old lead before behind onward) {u : Workflow} {m : Node}
    (faces : u.nodes.map Node.face = v.nodes.map Node.face) (edges : u.edges = v.edges)
    (face : m.face = n.face) : w.Spliced u m source handle old lead before behind onward := by
  have name : m.id = n.id := congrArg Prod.fst face
  have kind : m.kind = n.kind := congrArg (fun f : String × Config => f.2.kind) face
  refine ⟨⟨h.found, h.leaves, h.first, edges.trans h.edges, h.leadSource, h.leadTarget.trans name.symm,
    h.leadDoor, faces.trans (face ▸ h.faces), name ▸ h.new, ?_⟩, ?_, ?_⟩
  · rw [Node.isA, kind]
    exact h.plain
  · rw [kind, name]
    exact h.passes
  · rw [kind]
    exact h.stops

end Workflow

namespace Editor

/-- Whatever a splice yields, the block is in the place of the edge. -/
theorem yields_spliced (h : w.WellFormed) (new : n.id ∉ w.nodeIds) (named : n.id ≠ "")
    (plain : n.isA .trigger = false) (canonical : n.config.Canonical)
    (occupied : w.edges.find? (fun x => x.leaves source (some handle)) = some old) (ids : IdSource) :
    (splice w n source (some handle)).Yields ids fun _ v =>
      ∃ lead before behind onward, w.Spliced v n source handle old lead before behind onward := by
  obtain ⟨leaves, before, behind, found, first⟩ := List.find?_eq_some_iff_append.1 occupied
  have taken : ((w.addNode n).withoutEdges [old.id]).edges = before ++ behind :=
    Workflow.edges_withoutEdges_split (w := w.addNode n) h.edgeIds found
  unfold splice
  rw [occupied]
  refine .bind (Connection.yields_meets _ _ _ ids) fun lead t _ meets => ?_
  have ledIn : w.LedIn (((w.addNode n).withoutEdges [old.id]).addEdge lead) n source handle old lead before
      behind [] :=
    { found, leaves, new, plain
      first := by simpa using first
      edges := by rw [Workflow.addEdge, taken, List.append_nil]
      leadSource := (Option.some.inj meets.source).symm
      leadTarget := (Option.some.inj meets.target).symm
      leadDoor := meets.door
      faces := List.map_append }
  dsimp only
  split
  · refine Edit.Yields.after ?_ _
    exact Edit.yields_liftM (later_connectIfAllowed _ _ t)
      ⟨lead, before, behind, ledIn.spliced h named canonical t⟩
  · next exit =>
    refine Edit.yields_pure ⟨lead, before, behind, [], ledIn, fun passes => ?_, fun _ => rfl⟩
    rw [NodeKind.passesOn, Bool.and_eq_true] at passes
    exact absurd passes.1 exit

/-- Whatever an insertion yields, the block is in the place of the edge; it is laid out and given back. -/
theorem yields_inserted {e : Editor} (h : e.workflow.Settled ids) (kind title : Document)
    (config : Option Document)
    (occupied : e.workflow.edges.find? (fun x => x.leaves source (some handle)) = some old) :
    (e.insertAfter source (some handle) kind title config).Yields ids fun _ out =>
      ∃ lead before behind onward,
        e.workflow.Spliced out.1.workflow out.2 source handle old lead before behind onward := by
  refine yields_insertAfter_of h (fun n after drawn new plain =>
    yields_spliced h.wellFormed new drawn.named plain drawn.canonical occupied after) ?_ kind title config
  rintro n v t - ⟨lead, before, behind, onward, spliced⟩
  have faces := Workflow.map_face_layout v e.limits.laneSpacing e.limits.rowSpacing
  have laid : e.workflow.Spliced (e.laidOut v) n source handle old lead before behind onward :=
    spliced.congr faces rfl rfl
  have mem : n.face ∈ (e.laidOut v).nodes.map Node.face := by
    rw [laid.faces]
    exact List.mem_append_right _ List.mem_cons_self
  exact ⟨lead, before, behind, onward,
    laid.congr rfl rfl (Workflow.face_node? (laid.nodup h.wellFormed.nodeIds) mem)⟩

/-- When a block is inserted into the first edge that leaves a node on a handle, an edge on the handle leads
to the block and all other edges stay.  The block leads on to where the edge led exactly if it has a plain
handle; and all that was reached from the trigger still is exactly in this case, or if the edge was not
reached, or if another edge that was reached leads to the same node. -/
theorem inserted_insertAfter {e f : Editor} (h : e.workflow.Settled ids)
    (occupied : e.workflow.edges.find? (fun x => x.leaves source (some handle)) = some old)
    {kind title : Document} {config : Option Document}
    (done : (e.insertAfter source (some handle) kind title config).run.run ids = (.ok (f, n), after)) :
    (∃ lead before behind onward,
        e.workflow.Spliced f.workflow n source handle old lead before behind onward)
      ∧ ((∃ x ∈ f.workflow.edges, x.source = n.id ∧ x.target = old.target) ↔ n.kind.passesOn = true)
      ∧ ((∀ id ∈ e.workflow.reachable, id ∈ f.workflow.reachable)
          ↔ n.kind.passesOn = true ∨ source ∉ e.workflow.reachable
            ∨ ∃ x ∈ e.workflow.edges, x.id ≠ old.id ∧ x.target = old.target
                ∧ x.source ∈ e.workflow.reachable) := by
  have inserted := (yields_inserted h kind title config occupied).holds (f, n)
  rw [done] at inserted
  obtain ⟨lead, before, behind, onward, spliced⟩ := inserted rfl
  exact ⟨⟨lead, before, behind, onward, spliced⟩, spliced.attached_iff h.wellFormed,
    spliced.reachable_iff h.wellFormed⟩

/-- A block of a kind, with standard settings, inserted into a workflow with a condition. -/
def intoForked (source handle kind : String) : Except Refusal (Editor × Node) × IdSource :=
  ((ofWorkflow .forked).insertAfter source (some handle) (.text kind) .null none).run.run .strokes

/-- A pause on a branch of the condition leads on to the exit. -/
theorem inserted_insertAfter_wait :
    ∃ f n after old, intoForked "c" "else" "wait" = (.ok (f, n), after)
      ∧ Workflow.forked.edges.find? (fun x => x.leaves "c" (some "else")) = some old
      ∧ (∃ x ∈ f.workflow.edges, x.source = n.id ∧ x.target = old.target)
      ∧ ∀ id ∈ Workflow.forked.reachable, id ∈ f.workflow.reachable := by
  have kind : (intoForked "c" "else" "wait").1.toOption.map (fun out => out.2.kind) = some .wait := by
    decide +kernel
  have there : (Workflow.forked.edges.find? fun x => x.leaves "c" (some "else")).isSome = true := by
    decide +kernel
  obtain ⟨old, occupied⟩ := Option.isSome_iff_exists.1 there
  rcases run : intoForked "c" "else" "wait" with ⟨_ | ⟨f, n⟩, after⟩
  · rw [run] at kind
    cases kind
  · rw [run] at kind
    have isWait : n.kind = .wait := Option.some.inj kind
    have passes : n.kind.passesOn = true := by
      rw [isWait]
      decide
    obtain ⟨-, attached, reached⟩ := inserted_insertAfter (e := ofWorkflow .forked) settled_forked occupied run
    exact ⟨f, n, after, old, rfl, occupied, attached.2 passes, reached.2 (.inl passes)⟩

/-- A condition between the trigger and what follows cuts it off, although edges may leave conditions. -/
theorem not_attached_insertAfter_condition :
    Workflow.forked.Settled .strokes ∧ NodeKind.condition.hasOutput = true
      ∧ (Workflow.forked.edges.find? fun x => x.leaves "t" (some "out")).map (·.target) = some "c"
      ∧ Workflow.forked.reachable = ["t", "c", "x"]
      ∧ (intoForked "t" "out" "condition").1.toOption.map (fun out =>
          (out.2.kind, out.1.workflow.edges.map Workflow.ends, out.1.workflow.reachable))
        = some (.condition, [("c", "x"), ("t", "condition_#")], ["t", "condition_#"]) := by
  exact ⟨settled_forked, by decide, by decide +kernel, by decide +kernel, by decide +kernel⟩

end Editor

end Journey
