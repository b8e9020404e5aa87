import Journey.Proofs.Runner.Laid

/-!
# Journey.Proofs.Runner.Recompiled -- a flow that is imported gives the same flow again

A flow is read back into a workflow of its own: one node for each step, and edges that say what the
verdicts said.  Where the flow was made from a workflow without a fatal finding, the walk through the
new workflow writes the same steps; only the stop at the end may have another name.

What was written before the stop are settled steps (`settled_compile`), and a walk through the workflow of
settled steps writes just these (`compile_workflow`).  Between the two stands the reading of the stored
flow, which states the length of a pause that was left open (`read_documents`).  Main statement:
`compile_ofFlow_compile`.
-/

namespace Journey

set_option autoImplicit false

/-! ## Reading a stored flow -/

/-- The length of a pause is read as it was written, and as one if it was left open. -/
theorem Action.readDuration_document {duration : Option Float}
    (settled : Compilation.handedOn duration = duration) :
    readDuration (durationDocument duration) = .ok (duration.getD 1.0) := by
  cases duration with
  | none =>
    have one : Decimal.ofInt? 1 = some 1.0 := by decide +kernel
    simp [readDuration, durationDocument, Document.isVoid, one]
  | some x =>
    have nonzero : (x == 0.0) = false := by
      by_contra zero
      simp [Compilation.handedOn, zero] at settled
    simp [readDuration, durationDocument, Document.isVoid, nonzero]

theorem Action.read_document {a : Action} (settled : a.Settled) :
    Action.read? (.text a.typeName) a.fields = some (.ok a.stated) := by
  cases a with
  | stop => exact settled.elim
  | sendEmail m =>
    have flag : Workflow.notFalse (.bool m.threadWithPrevious) = m.threadWithPrevious := by
      cases m.threadWithPrevious <;> rfl
    simp [typeName, read?, fields, stated, Fields.getD, Fields.get?_cons, flag]
  | wait duration unit =>
    simp [typeName, read?, fields, stated, Fields.getD, Fields.get?_cons,
      readDuration_document settled, readUnit, Except.map]
  | condition rule value ifTrue ifFalse =>
    have verdict (v : Verdict) : readVerdict (.text v.name) = v := by cases v <;> rfl
    simp [typeName, read?, fields, stated, Fields.getD, Fields.get?_cons, verdict]

theorem Step.read_document {s : Step} (settled : s.action.Settled) :
    Step.read? s.document = some (.ok s.stated) := by
  simp [Step.read?, Step.document, Fields.getD, Fields.get?_cons,
    Action.read_document settled, Except.map, Step.stated]

namespace Flow

theorem mapM_ok (f : Flow) :
    (f.map Except.ok).mapM id = (.ok f : Except DurationTooLarge (List Step)) := by
  induction f with
  | nil => rfl
  | cons s f ih =>
    rw [List.map_cons, List.mapM_cons, ih]
    rfl

/-- The stored flow of settled steps is read as these steps and the stop, each pause with its length. -/
theorem read_documents {f : Flow} (settled : ∀ s ∈ f, s.action.Settled) (stop : String) :
    Flow.read (documents (f ++ [.stop stop])) = .ok (f.map Step.stated ++ [.stop stop]) := by
  have steps : (documents (f ++ [.stop stop])).filterMap Step.read?
      = (f.map Step.stated ++ [Step.stop stop]).map Except.ok := by
    induction f with
    | nil =>
      simp [documents, Step.stop, Step.document, Step.read?, Action.typeName, Action.read?,
        Action.fields, Fields.getD, Fields.get?_cons, Except.map]
    | cons s f ih =>
      obtain ⟨first, rest⟩ := List.forall_mem_cons.1 settled
      rw [List.cons_append, documents, List.map_cons, List.filterMap_cons, Step.read_document first]
      exact congrArg (Except.ok s.stated :: ·) (ih rest)
  rw [Flow.read, steps, mapM_ok]

end Flow

/-! ## The new workflow -/

namespace Step

theorem identify_of_named {s : Step} (named : s.id ≠ "") : s.identify = pure s := by
  simp [identify, Fresh.orElse, named]

end Step

namespace Flow

theorem mapM_identify_steps {f : Flow} (named : ∀ s ∈ f, s.id ≠ "") :
    f.mapM Step.identify = (pure f : Fresh (List Step)) := by
  induction f with
  | nil => rfl
  | cons s f ih =>
    obtain ⟨first, rest⟩ := List.forall_mem_cons.1 named
    rw [List.mapM_cons, Step.identify_of_named first, ih rest]
    rfl

/-- New identifiers leave the routes of edges as they are. -/
theorem map_route_mapM_identify (es : List Edge) (ids : IdSource) :
    ((es.mapM Edge.identify).run ids).1.map Edge.route = es.map Edge.route := by
  induction es generalizing ids with
  | nil => rfl
  | cons e es ih =>
    rw [List.mapM_cons]
    show Edge.route _ :: ((es.mapM Edge.identify).run _).1.map Edge.route = _
    rw [ih]
    rfl

/-- The steps that are no stops. -/
def withoutStops (f : Flow) : Flow := f.filter fun s => !s.action.isStop

/-- The new workflow of a flow lays the steps that are no stops between a trigger and an exit. -/
theorem lays_withoutStops {f : Flow} (named : ∀ s ∈ f.withoutStops, s.id ≠ "") (id name : String)
    (status : WorkflowStatus) (ids : IdSource) :
    ∃ trigger exit, trigger ≠ exit
      ∧ (((toWorkflow f id name status).run ids).1.nodes
          = (f.withoutStops.workflow trigger exit).nodes)
      ∧ ((toWorkflow f id name status).run ids).1.edges.map Edge.route
          = (f.withoutStops.workflow trigger exit).edges.map Edge.route := by
  have steps : (f.filter fun s => !s.action.isStop).mapM Step.identify
      = (pure f.withoutStops : Fresh (List Step)) := mapM_identify_steps named
  refine ⟨"trigger_" ++ ids.suffix ids.used, "exit_" ++ ids.suffix (ids.used + 1), ?_, ?_, ?_⟩
  · intro same
    have chars := congrArg String.toList same
    simp at chars
  · rw [toWorkflow, steps]
    rfl
  · rw [toWorkflow, steps]
    exact map_route_mapM_identify (f.withoutStops.workflow _ _).edges { ids with used := ids.used + 1 + 1 }

/-- The new workflow of steps that are no stops lays them between a trigger and an exit. -/
theorem lays_toWorkflow {f : Flow} (named : ∀ s ∈ f, s.id ≠ "")
    (acts : ∀ s ∈ f, s.action.isStop = false) (stop id name : String) (status : WorkflowStatus)
    (ids : IdSource) :
    ∃ trigger exit, trigger ≠ exit
      ∧ (((toWorkflow (f ++ [.stop stop]) id name status).run ids).1.nodes
          = (f.workflow trigger exit).nodes)
      ∧ ((toWorkflow (f ++ [.stop stop]) id name status).run ids).1.edges.map Edge.route
          = (f.workflow trigger exit).edges.map Edge.route := by
  have steps : withoutStops (f ++ [Step.stop stop]) = f := by
    have all : f.filter (fun s => !s.action.isStop) = f :=
      List.filter_eq_self.2 fun s mem => by simp [acts s mem]
    rw [withoutStops, List.filter_append, all]
    exact List.append_nil f
  have laid := lays_withoutStops (f := f ++ [.stop stop]) (by rwa [steps]) id name status ids
  rwa [steps] at laid

end Flow

/-! ## The same flow again -/

theorem Action.Settled.stated {a : Action} (settled : a.Settled) : a.stated.Settled := by
  cases a with
  | wait duration unit => exact Compilation.handedOn_getD settled
  | _ => exact settled

theorem Action.suits_stated {a : Action} {more : Bool} : a.stated.Suits more ↔ a.Suits more := by
  cases a <;> rfl

theorem Flow.map_id_stated (f : Flow) : (f.map Step.stated).map (·.id) = f.map (·.id) := by
  simp [Step.stated]

theorem Flow.map_stated_stated (f : Flow) : (f.map Step.stated).map Step.stated = f.map Step.stated := by
  have again (a : Action) : a.stated.stated = a.stated := by cases a <;> rfl
  simp [Step.stated, again]

theorem Flow.Settled.stated {f : Flow} (h : f.Settled) : Flow.Settled (f.map Step.stated) := by
  induction f with
  | nil => exact h
  | cons s f ih =>
    obtain ⟨new, named, action, suits, rest⟩ := Flow.settled_cons_iff.1 h
    rw [List.map_cons, Flow.settled_cons_iff, Flow.map_id_stated]
    refine ⟨new, named, action.stated, Action.suits_stated.2 ?_, ih rest⟩
    simpa using suits

/-- Two flows that end in a stop have the same steps before it, where a pause that was left open is one
of length one. -/
def Flow.SameButStop (f g : Flow) : Prop :=
  ∃ steps others stop stop', f = steps ++ [Step.stop stop] ∧ g = others ++ [Step.stop stop']
    ∧ steps.map Step.stated = others.map Step.stated

/-- The flow of a workflow without fatal finding is imported, and the new workflow gives the same flow
again, as long as the new names of its trigger and its exit are not names of steps. -/
theorem Workflow.compile_ofFlow_compile (w : Workflow) (named : ∀ n ∈ w.nodes, n.id ≠ "")
    (fine : w.compile.hasFatal = false) (id name : String) (status : Document) :
    ∃ new, ofFlow (.list w.compile.steps.documents) id name status = .ok new
      ∧ ∀ ids, (∀ n ∈ (new.run ids).1.nodes, n.isA .trigger = true ∨ n.isA .exit = true →
            ∀ s ∈ w.compile.steps, s.action.isStop = false → s.id ≠ n.id) →
          (new.run ids).1.compile.steps.SameButStop w.compile.steps := by
  obtain ⟨f, stop, steps, settled, short⟩ := Compilation.settled_compile named fine
  rw [steps]
  refine ⟨Flow.toWorkflow (f.map Step.stated ++ [.stop stop]) id name (readStatus status), ?_,
    fun ids apart => ?_⟩
  · rw [ofFlow, Document.items_list, Flow.read_documents settled.actions]
    rfl
  · have again := settled.stated
    obtain ⟨trigger, exit, different, nodes, edges⟩ :=
      Flow.lays_toWorkflow (fun s mem => (again.named s mem).1)
        (fun s mem => (again.actions s mem).isStop) stop id name (readStatus status) ids
    rw [nodes] at apart
    have free (n : Node) (mem : n ∈ (Flow.workflow (f.map Step.stated) trigger exit).nodes)
        (ending : n.isA .trigger = true ∨ n.isA .exit = true) : n.id ∉ f.map (·.id) := by
      intro taken
      obtain ⟨s, memS, same⟩ := List.mem_map.1 taken
      exact apart n mem ending s (List.mem_append_left _ memS) (settled.actions s memS).isStop same
    have distinct : (trigger :: (f.map Step.stated).map (·.id) ++ [exit]).Nodup := by
      rw [Flow.map_id_stated]
      obtain ⟨⟨n, memN, rfl, isTrigger⟩, ⟨m, memM, rfl, isExit⟩⟩ :=
        Flow.ends_workflow (f.map Step.stated) trigger exit
      have noTrigger := free n memN (.inl isTrigger)
      have noExit := free m memM (.inr isExit)
      rw [List.cons_append, List.nodup_cons, List.nodup_append, List.mem_append, List.mem_singleton]
      refine ⟨by simp [noTrigger, different], settled.distinct, List.nodup_singleton _, ?_⟩
      intro i mem j last
      rw [List.mem_singleton.1 last]
      exact fun same => noExit (same ▸ mem)
    have fits : (f.map Step.stated).length ≤ compileBudget := by rwa [List.length_map]
    obtain ⟨stop', steps'⟩ := Compilation.compile_workflow ⟨nodes, edges, distinct⟩ again fits
    rw [Flow.map_stated_stated] at steps'
    exact ⟨f.map Step.stated, f, stop', stop, steps', rfl, Flow.map_stated_stated f⟩

/-- A pause of open length before a message. -/
def Workflow.reminder : Workflow :=
  { id := "w"
    nodes := [{ id := "t", config := .trigger {} }, { id := "p", config := .wait {} },
      { id := "m", config := .sendEmail {} }, { id := "x", config := .exit {} }]
    edges := [{ id := "e1", source := "t", target := "p" }, { id := "e2", source := "p", target := "m" },
      { id := "e3", source := "m", target := "x" }] }

theorem Workflow.compile_ofFlow_compile_reminder :
    ∃ new, ofFlow (.list reminder.compile.steps.documents) "" "" .null = .ok new
      ∧ (new.run { suffix := fun _ => "new" }).1.compile.steps.SameButStop
          reminder.compile.steps := by
  obtain ⟨new, imported, same⟩ :=
    compile_ofFlow_compile reminder (by simp [reminder]) (by decide +kernel) "" "" .null
  refine ⟨new, imported, same _ ?_⟩
  have steps : reminder.compile.steps
      = [⟨"p", "Wait", .wait none .days⟩, ⟨"m", "Send email", .sendEmail ⟨"", "", "", "", true⟩⟩]
        ++ [.stop "x"] := by
    rfl
  have settled : ∀ s ∈ [⟨"p", "Wait", .wait none .days⟩,
      (⟨"m", "Send email", .sendEmail ⟨"", "", "", "", true⟩⟩ : Step)], s.action.Settled := by
    simp [Action.Settled, Compilation.handedOn]
  rw [steps, ofFlow, Document.items_list, Flow.read_documents settled] at imported
  cases imported
  rw [steps]
  intro n mem ending s memS acts
  change n ∈ [_, _, _, _] at mem
  change s ∈ [_, _, _] at memS
  simp only [List.mem_cons, List.not_mem_nil, or_false] at mem memS
  have names : s.id = "p" ∨ s.id = "m" := by
    rcases memS with rfl | rfl | rfl
    · exact .inl rfl
    · exact .inr rfl
    · cases acts
  have different (id : String) (other : id ≠ "p" ∧ id ≠ "m") : s.id ≠ id := by
    rcases names with name | name <;> rw [name]
    · exact other.1.symm
    · exact other.2.symm
  rcases mem with rfl | rfl | rfl | rfl
  · exact different _ (by decide +kernel)
  · rcases ending with h | h <;> cases h
  · rcases ending with h | h <;> cases h
  · exact different _ (by decide +kernel)

end Journey
