import Journey.Proofs.Runner.Settled
import Journey.Runner.Imported

/-!
# Journey.Proofs.Runner.Laid -- the workflow of a flow is walked as the flow says

A workflow is made of a flow with one node for each step, and edges that say what the verdicts said
(`Workflow.Lays`).  Each node has the edges of its step and no others (`Lays.edges_step`), and a step that is
settled is written again from its node (`emailStep_node`, `waitStep_node`, `planCondition_node`).  So the walk
through the workflow of settled steps writes just these, each pause with its length (`walk_workflow`).  Main
statement: `compile_workflow`.
-/

namespace Journey

set_option autoImplicit false

/-! ## The step of an imported node -/

/-- The action with the length of a pause stated. -/
def Action.stated : Action → Action
  | .wait duration unit => .wait (some (duration.getD 1.0)) unit
  | a => a

/-- The step with the length of a pause stated. -/
def Step.stated (s : Step) : Step := { s with action := s.action.stated }

namespace Compilation

theorem handedOn_getD {duration : Option Float} (h : handedOn duration = duration) :
    handedOn (some (duration.getD 1.0)) = some (duration.getD 1.0) := by
  cases duration with
  | none => decide +kernel
  | some x => exact h

/-- The clause that stands for what the runner tests is read as it is. -/
theorem canonical_clause (rule : RunnerRule) (value : String) :
    ({ clauses := [rule.clause value] } : ConditionConfig).canonical
      = [{ rule.clause value with id := Handle.ifBranch }] := by
  have plain : (rule.clause value).extra = [] := by cases rule <;> rfl
  have trimmed : Text.trim (rule.clause value).propertyKey = (rule.clause value).propertyKey := by
    cases rule with
    | hasReplied => exact (show Text.trim "" = "" by decide +kernel)
    | emailDomainContains => exact (show Text.trim "email_domain" = "email_domain" by decide +kernel)
    | companyContains => exact (show Text.trim "company" = "company" by decide +kernel)
    | jobTitleContains => exact (show Text.trim "job_title" = "job_title" by decide +kernel)
  rw [ConditionConfig.canonical, Condition.canonical,
    Condition.readClauses_row rfl (List.cons_ne_nil _ _), List.map_singleton,
    Condition.readClause_row plain, trimmed]
  rfl

/-- What the runner tests is tested by the clause that stands for it. -/
theorem forRunner_clause {rule : RunnerRule} {value : String}
    (settled : rule = .hasReplied → value = "") :
    ((({ clauses := [rule.clause value] } : ConditionConfig).canonical.head?.getD {}).forRunner).1 = rule
      ∧ ((({ clauses := [rule.clause value] } : ConditionConfig).canonical.head?.getD {}).forRunner).2.1
        = value := by
  rw [canonical_clause, List.head?_cons, Option.getD_some]
  cases rule with
  | hasReplied => exact ⟨rfl, (settled rfl).symm⟩
  | emailDomainContains =>
    have known : RunnerRule.forKey? (Text.lower "email_domain") = some .emailDomainContains := by
      decide +kernel
    simp [Clause.forRunner, RunnerRule.clause, known]
  | companyContains =>
    have known : RunnerRule.forKey? (Text.lower "company") = some .companyContains := by decide +kernel
    simp [Clause.forRunner, RunnerRule.clause, known]
  | jobTitleContains =>
    have known : RunnerRule.forKey? (Text.lower "job_title") = some .jobTitleContains := by
      decide +kernel
    simp [Clause.forRunner, RunnerRule.clause, known]

end Compilation

/-! ## The workflow of a flow -/

/-- What a walk looks at in an edge. -/
def Edge.route (e : Edge) : String × String × Option String := (e.source, e.target, e.sourceHandle)

/-- Where a flow is entered: its first step, or the exit. -/
def Flow.entry (exit : String) (f : Flow) : String := (f.head?.map (·.id)).getD exit

/-- The nodes of a flow between a trigger and an exit, and its edges under whatever identifiers. -/
structure Workflow.Lays (w : Workflow) (f : Flow) (trigger exit : String) : Prop where
  nodes : w.nodes = (f.workflow trigger exit).nodes
  edges : w.edges.map Edge.route = (f.workflow trigger exit).edges.map Edge.route
  distinct : (trigger :: f.map (·.id) ++ [exit]).Nodup

namespace Flow

theorem map_id_nodes (position : Nat) (f : Flow) :
    (nodes position f).map (·.id) = f.map (·.id) := by
  induction f generalizing position with
  | nil => rfl
  | cons s f ih => simp [nodes, ih, Step.node]

theorem mem_nodes {position : Nat} {f : Flow} {s : Step} (mem : s ∈ f) :
    ∃ p, s.node p ∈ nodes position f := by
  induction f generalizing position with
  | nil => cases mem
  | cons t f ih =>
    rcases List.mem_cons.1 mem with rfl | later
    · exact ⟨place position, by simp [nodes]⟩
    · obtain ⟨p, memP⟩ := @ih (position + 1) later
      exact ⟨p, List.mem_cons_of_mem _ memP⟩

theorem ends_workflow (f : Flow) (trigger exit : String) :
    (∃ n ∈ (f.workflow trigger exit).nodes, n.id = trigger ∧ n.isA .trigger = true)
      ∧ ∃ n ∈ (f.workflow trigger exit).nodes, n.id = exit ∧ n.isA .exit = true := by
  constructor <;> simp [Flow.workflow, Node.isA, Node.kind, Config.kind]

theorem source_of_mem_edges {s : Step} {next exit : String} {e : Edge}
    (mem : e ∈ s.edges next exit) : e.source = s.id := by
  unfold Step.edges at mem
  split at mem <;> simp [Step.branchEdge] at mem
  · rcases mem with rfl | rfl <;> rfl
  · rw [mem]

theorem edgesFrom_step (s : Step) (next exit id : String) :
    Workflow.edgesFrom (s.edges next exit) id = if s.id = id then s.edges next exit else [] := by
  unfold Workflow.edgesFrom
  split
  · next same =>
    exact List.filter_eq_self.2 fun e mem => by simp [source_of_mem_edges mem, same]
  · next other =>
    exact List.filter_eq_nil_iff.2 fun e mem => by simp [source_of_mem_edges mem, other]

theorem edgesFrom_append (es fs : List Edge) (id : String) :
    Workflow.edgesFrom (es ++ fs) id = Workflow.edgesFrom es id ++ Workflow.edgesFrom fs id :=
  List.filter_append ..

theorem edgesFrom_of_not_mem {exit : String} {f : Flow} {id : String} (other : id ∉ f.map (·.id)) :
    Workflow.edgesFrom (edges exit f) id = [] := by
  induction f with
  | nil => rfl
  | cons s f ih =>
    rw [List.map_cons, List.mem_cons, not_or] at other
    rw [edges, edgesFrom_append, edgesFrom_step, if_neg (Ne.symm other.1), ih other.2]
    rfl

/-- The edges that leave the node of a step lead to the step after it and to the exit. -/
theorem edgesFrom_edges {exit : String} {before after : Flow} {s : Step}
    (distinct : ((before ++ s :: after).map (·.id)).Nodup) :
    Workflow.edgesFrom (edges exit (before ++ s :: after)) s.id
      = s.edges (after.entry exit) exit := by
  induction before with
  | nil =>
    rw [List.nil_append, List.map_cons, List.nodup_cons] at distinct
    rw [List.nil_append, edges, edgesFrom_append, edgesFrom_step, if_pos rfl,
      edgesFrom_of_not_mem distinct.1, List.append_nil]
    rfl
  | cons b before ih =>
    rw [List.cons_append, List.map_cons, List.nodup_cons] at distinct
    have other : b.id ≠ s.id := fun same => distinct.1 (by simp [same])
    rw [List.cons_append, edges, edgesFrom_append, edgesFrom_step, if_neg other, ih distinct.2]
    rfl

end Flow

namespace Workflow.Lays

variable {w : Workflow} {f : Flow} {trigger exit : String}

theorem map_route_edgesFrom {es fs : List Edge} (h : es.map Edge.route = fs.map Edge.route)
    (id : String) :
    (edgesFrom es id).map Edge.route = (edgesFrom fs id).map Edge.route := by
  have routes (es : List Edge) :
      (edgesFrom es id).map Edge.route = (es.map Edge.route).filter fun r => r.1 == id := by
    rw [edgesFrom, List.filter_map]
    rfl
  rw [routes, routes, h]

theorem ids (h : w.Lays f trigger exit) :
    w.nodes.map (·.id) = trigger :: f.map (·.id) ++ [exit] := by
  simp [h.nodes, Flow.workflow, Flow.map_id_nodes]

theorem unique (h : w.Lays f trigger exit) : (w.nodes.map (·.id)).Nodup := h.ids ▸ h.distinct

theorem node (h : w.Lays f trigger exit) {s : Step} (mem : s ∈ f) :
    ∃ p, indexed? w.nodes s.id = some (s.node p) := by
  obtain ⟨p, memP⟩ := @Flow.mem_nodes 0 f s mem
  refine ⟨p, (indexed?_eq_some_iff h.unique).2 ⟨?_, rfl⟩⟩
  simp [h.nodes, Flow.workflow, memP]

theorem exit_node (h : w.Lays f trigger exit) :
    ∃ n, indexed? w.nodes exit = some n ∧ ∃ c, n.config = .exit c := by
  have there : ∃ n ∈ w.nodes, n.id = exit ∧ ∃ c, n.config = .exit c := by
    simp [h.nodes, Flow.workflow]
  obtain ⟨n, mem, name, config⟩ := there
  exact ⟨n, (indexed?_eq_some_iff h.unique).2 ⟨mem, name⟩, config⟩

/-- The edges that leave a node of the flow lead to the step after it and to the exit. -/
theorem edges_step (h : w.Lays f trigger exit) {before after : Flow} {s : Step}
    (split : f = before ++ s :: after) :
    (edgesFrom w.edges s.id).map Edge.route
      = (s.edges (after.entry exit) exit).map Edge.route := by
  subst split
  have distinct := h.distinct
  rw [List.cons_append, List.nodup_cons, List.nodup_append] at distinct
  have other : trigger ≠ s.id := fun same => distinct.1 (by simp [same])
  have first : edgesFrom (Flow.workflow (before ++ s :: after) trigger exit).edges s.id
      = edgesFrom (Flow.edges exit (before ++ s :: after)) s.id := by
    simp [Flow.workflow, edgesFrom, other]
  rw [map_route_edgesFrom h.edges, first, Flow.edgesFrom_edges distinct.2.1]

/-- A step is new where only steps before it have been seen. -/
theorem not_mem_seen (h : w.Lays f trigger exit) {before after : Flow} {s : Step}
    (split : f = before ++ s :: after) {seen : List String} (earlier : ∀ id ∈ seen, id ∈ before.map (·.id)) :
    s.id ∉ seen := by
  have distinct := (List.nodup_append.1 (List.nodup_cons.1 h.distinct).2).1
  rw [split, List.map_append, List.nodup_append] at distinct
  exact fun again => distinct.2.2 _ (earlier _ again) _ (by simp) rfl

/-- The edge that leaves the trigger leads to where the flow is entered. -/
theorem edges_trigger (h : w.Lays f trigger exit) :
    (edgesFrom w.edges trigger).map Edge.route = [(trigger, f.entry exit, none)] := by
  have other : trigger ∉ f.map (·.id) := by
    have distinct := h.distinct
    rw [List.cons_append, List.nodup_cons] at distinct
    exact fun mem => distinct.1 (List.mem_append_left _ mem)
  have first : edgesFrom (f.workflow trigger exit).edges trigger
      = { id := "", source := trigger, target := f.entry exit }
        :: edgesFrom (Flow.edges exit f) trigger := by
    simp [Flow.workflow, edgesFrom, Flow.entry]
  rw [map_route_edgesFrom h.edges, first, Flow.edgesFrom_of_not_mem other]
  rfl

end Workflow.Lays

/-! ## The walk through it -/

namespace Compilation

variable {w : Workflow} {f : Flow} {trigger exit : String}

/-- At the exit there is nothing but a stop. -/
theorem walk_exit (h : w.Lays f trigger exit) (budget : Nat) (visited : List String) (last : String) :
    ∃ id, (walk w budget visited last exit).steps = [.stop id] := by
  cases budget with
  | zero => exact ⟨_, rfl⟩
  | succ budget =>
    obtain ⟨n, found, c, config⟩ := h.exit_node
    rw [walk]
    split
    · exact ⟨_, rfl⟩
    · exact ⟨n.id, by simp [found, config, Compiled.stopped]⟩

theorem follow_of_route {n : Node} {rest : String → Compiled} {source target : String}
    {handle : Option String}
    (one : (Workflow.edgesFrom w.edges n.id).map Edge.route = [(source, target, handle)]) :
    follow w n rest = rest target := by
  obtain ⟨e, edges, route⟩ := List.map_eq_singleton_iff.1 one
  have same : e.target = target := congrArg (fun r => r.2.1) route
  rw [follow, edges, List.head?_cons]
  exact congrArg rest same

/-- Where the branches that go on lead to one point, the walk goes on there if there is one. -/
theorem continuation_of_one {plan : ConditionPlan} {n : Node} {rest : String → Compiled} {id : String}
    (ifNode : ∀ m, plan.ifNode = some m → m.id = id)
    (elseNode : ∀ m, plan.elseNode = some m → m.id = id) :
    continuation plan n rest =
      if plan.ifNode.isSome || plan.elseNode.isSome then rest id else .stopped (stopId n.id) := by
  unfold continuation
  split
  · next a b atIf atElse => simp [atIf, atElse, ifNode a atIf, elseNode b atElse]
  · next a atIf atElse => simp [atIf, ifNode a atIf]
  · next b atIf atElse => simp [atElse, elseNode b atElse]
  · next atIf atElse => simp [atIf, atElse]

theorem isA_exit_node {s : Step} (acts : s.action.isStop = false) (p : Position) :
    (s.node p).isA .exit = false := by
  cases action : s.action with
  | stop => simp [action, Action.isStop] at acts
  | _ => simp [Node.isA, Node.kind, Step.node, Step.settings, action, Config.kind]

/-- A branch of an imported condition goes on exactly if its verdict says so and there is a step after it,
and then it goes on to that step. -/
theorem onward_branch (h : w.Lays f trigger exit) (acts : ∀ s ∈ f, s.action.isStop = false)
    {before after : Flow} {s : Step} (split : f = before ++ s :: after) {e : Edge} {v : Verdict}
    (target : e.target = Step.branchTarget v (after.entry exit) exit) :
    (onward w.nodes (some e)).isSome = (v == .goOn && !after.isEmpty)
      ∧ ∀ m, onward w.nodes (some e) = some m → m.id = after.entry exit := by
  have atExit (toExit : e.target = exit) : onward w.nodes (some e) = none := by
    obtain ⟨n, found, c, config⟩ := h.exit_node
    simp [onward, toExit, found, Node.isA, Node.kind, config, Config.kind]
  cases v with
  | halt =>
    rw [atExit target]
    exact ⟨rfl, by simp⟩
  | goOn =>
    cases after with
    | nil =>
      rw [atExit target]
      exact ⟨rfl, by simp⟩
    | cons t after =>
      have mem : t ∈ f := by simp [split]
      obtain ⟨p, found⟩ := h.node mem
      have inner := isA_exit_node (acts t mem) p
      have toNext : e.target = t.id := target
      have reached : onward w.nodes (some e) = some (t.node p) := by
        simp [onward, toNext, found, inner]
      rw [reached]
      refine ⟨rfl, fun m there => ?_⟩
      rw [← Option.some.inj there]
      rfl

theorem name_node {s : Step} (named : s.name ≠ "") (p : Position) (usual : String) :
    (if (s.node p).title.isEmpty then usual else (s.node p).title) = s.name := by
  simp [Step.node, named]

theorem emailStep_node {s : Step} {m : Message} (action : s.action = .sendEmail m)
    (named : s.name ≠ "") (p : Position) :
    ∃ c, (s.node p).config = .sendEmail c ∧ emailStep (s.node p) c = s.stated := by
  refine ⟨_, congrArg Step.settings action, ?_⟩
  rw [emailStep, name_node named, Step.stated, action]
  rfl

theorem waitStep_node {s : Step} {duration : Option Float} {unit : WaitUnit}
    (action : s.action = .wait duration unit) (settled : s.action.Settled) (named : s.name ≠ "")
    (p : Position) :
    ∃ c, (s.node p).config = .wait c ∧ waitStep (s.node p) c = s.stated := by
  rw [action] at settled
  refine ⟨_, congrArg Step.settings action, ?_⟩
  rw [waitStep, name_node named, handedOn_getD settled, Step.stated, action]
  rfl

/-- A branch of an imported condition goes on exactly if its verdict says so and there is a step after it.
Where one of them goes on, so does the walk, to that step. -/
theorem planCondition_branches (h : w.Lays f trigger exit) (acts : ∀ s ∈ f, s.action.isStop = false)
    {before after : Flow} {s : Step} (split : f = before ++ s :: after) {rule : RunnerRule}
    {value : String} {ifTrue ifFalse : Verdict} (action : s.action = .condition rule value ifTrue ifFalse)
    (p : Position) {clauses : List Clause} {plan : ConditionPlan}
    (planned : plan = planCondition w.nodes (s.node p) clauses
      (Workflow.edgesFrom w.edges (s.node p).id)) :
    plan.ifNode.isSome = (ifTrue == .goOn && !after.isEmpty)
      ∧ plan.elseNode.isSome = (ifFalse == .goOn && !after.isEmpty)
      ∧ ∀ rest, continuation plan (s.node p) rest =
          if plan.ifNode.isSome || plan.elseNode.isSome then rest (after.entry exit)
          else .stopped (stopId s.id) := by
  have routes := h.edges_step split
  simp only [Step.edges, action, List.map_cons, List.map_nil] at routes
  obtain ⟨e₁, edges, out, route₁, rest₁⟩ := List.map_eq_cons_iff.1 routes
  obtain ⟨e₂, rfl, route₂⟩ := List.map_eq_singleton_iff.1 rest₁
  change Workflow.edgesFrom w.edges (s.node p).id = _ at out
  simp only [Edge.route, Step.branchEdge, Prod.mk.injEq] at route₁ route₂
  obtain ⟨-, target₁, handle₁⟩ := route₁
  obtain ⟨-, target₂, handle₂⟩ := route₂
  have ifEdge : edgeOn [e₁, e₂] [Handle.ifBranch, "yes"] = some e₁ := by
    simp [edgeOn, handle₁]
  have elseEdge : edgeOn [e₁, e₂] [Handle.elseBranch, "no"] = some e₂ := by
    simp [edgeOn, handle₁, handle₂, Handle.ifBranch, Handle.elseBranch]
  have ifNode : plan.ifNode = onward w.nodes (some e₁) := by
    rw [planned, out, planCondition, ifEdge]
  have elseNode : plan.elseNode = onward w.nodes (some e₂) := by
    rw [planned, out, planCondition, elseEdge]
  obtain ⟨some₁, name₁⟩ := onward_branch h acts split target₁
  obtain ⟨some₂, name₂⟩ := onward_branch h acts split target₂
  exact ⟨ifNode ▸ some₁, elseNode ▸ some₂, fun rest =>
    continuation_of_one (ifNode ▸ name₁) (elseNode ▸ name₂)⟩

/-- An imported condition is planned as the step says it, and goes on to the step after it if there is
one. -/
theorem planCondition_node (h : w.Lays f trigger exit) (settled : f.Settled) {before after : Flow}
    {s : Step} (split : f = before ++ s :: after) {rule : RunnerRule} {value : String}
    {ifTrue ifFalse : Verdict} (action : s.action = .condition rule value ifTrue ifFalse)
    (suits : s.action.Suits (!after.isEmpty)) (p : Position) {plan : ConditionPlan}
    (planned : plan = planCondition w.nodes (s.node p)
      ({ clauses := [rule.clause value] } : ConditionConfig).canonical
      (Workflow.edgesFrom w.edges (s.node p).id)) :
    plan.step = s ∧ ∀ rest, continuation plan (s.node p) rest =
      if after.isEmpty then .stopped (stopId s.id) else rest (after.entry exit) := by
  have mem : s ∈ f := by simp [split]
  have goesOn : (ifTrue == .goOn || ifFalse == .goOn) = !after.isEmpty := by
    rwa [action] at suits
  obtain ⟨ifSome, elseSome, onto⟩ :=
    planCondition_branches h (fun t memT => (settled.actions t memT).isStop) split action p planned
  have condition := settled.actions s mem
  rw [action] at condition
  obtain ⟨sameRule, sameValue⟩ := forRunner_clause condition
  -- each verdict is the one that the step has, for there is no branch to go on where there is no step
  have same (o : Option Node) (v : Verdict) (goes : o.isSome = (v == .goOn && !after.isEmpty))
      (more : v = .goOn → after.isEmpty = false) : verdict o = v := by
    rw [verdict, goes]
    cases v with
    | halt => rfl
    | goOn => rw [more rfl]; rfl
  constructor
  · rw [planned, step_planCondition, ← planned, same _ _ ifSome, same _ _ elseSome, sameRule, sameValue,
      name_node (settled.named s mem).2, ← action]
    · rfl
    · rintro rfl
      simpa using goesOn.symm
    · rintro rfl
      simpa using goesOn.symm
  · intro rest
    rw [onto, ifSome, elseSome, ← Bool.and_or_distrib_right, goesOn, Bool.and_self]
    cases after <;> rfl

theorem suits_of_chained {before after : Flow} {s : Step}
    (h : Flow.Chained (before ++ s :: after)) : s.action.Suits (!after.isEmpty) := by
  induction before with
  | nil => exact h.1
  | cons b before ih => exact ih h.2

/-- The walk through the workflow of settled steps writes these steps, each pause with its length. -/
theorem walk_workflow (h : w.Lays f trigger exit) (settled : f.Settled) (budget : Nat)
    (visited : List String) (last : String) (before after : Flow) (split : f = before ++ after)
    (short : after.length ≤ budget) (seen : ∀ id ∈ visited, id ∈ before.map (·.id)) :
    ∃ id, (walk w budget visited last (after.entry exit)).steps
      = after.map Step.stated ++ [.stop id] := by
  induction after generalizing before budget visited last with
  | nil => exact walk_exit h budget visited last
  | cons s after ih =>
    obtain ⟨budget, rfl⟩ : ∃ b, budget = b + 1 := ⟨budget - 1, by simp at short; omega⟩
    have mem : s ∈ f := by simp [split]
    obtain ⟨p, found⟩ := h.node mem
    have unseen : s.id ∉ visited := h.not_mem_seen split seen
    -- the walk from the step after this one
    have later : ∃ id, (walk w budget (s.id :: visited) s.id (Flow.entry exit after)).steps
        = after.map Step.stated ++ [.stop id] := by
      refine ih budget (s.id :: visited) s.id (before ++ [s]) (by simp [split])
        (by simpa using short) ?_
      refine List.forall_mem_cons.2 ⟨by simp, fun id again => ?_⟩
      simp [seen id again]
    obtain ⟨id, later⟩ := later
    show ∃ id, (walk w (budget + 1) visited last s.id).steps = _
    rw [walk, if_neg (by simpa using unseen), found]
    simp only
    have routes := h.edges_step split
    have action := settled.actions s mem
    have named := (settled.named s mem).2
    cases kind : s.action with
    | stop =>
      rw [kind] at action
      exact action.elim
    | sendEmail m =>
      obtain ⟨c, config, step⟩ := emailStep_node kind named p
      simp only [Step.edges, kind, List.map_cons, List.map_nil, Edge.route] at routes
      rw [config]
      simp only [step, follow_of_route (n := s.node p) routes]
      exact ⟨id, congrArg (s.stated :: ·) later⟩
    | wait duration unit =>
      obtain ⟨c, config, step⟩ := waitStep_node kind action named p
      simp only [Step.edges, kind, List.map_cons, List.map_nil, Edge.route] at routes
      rw [config]
      simp only [step, follow_of_route (n := s.node p) routes]
      exact ⟨id, congrArg (s.stated :: ·) later⟩
    | condition rule value ifTrue ifFalse =>
      have config : (s.node p).config = .condition { clauses := [rule.clause value] } :=
        congrArg Step.settings kind
      obtain ⟨step, goesOn⟩ :=
        planCondition_node h settled split kind (suits_of_chained (split ▸ settled.chained)) p rfl
      have stated : s.stated = s := by
        rw [Step.stated, kind]
        exact congrArg (Step.mk s.id s.name) kind.symm
      rw [config]
      simp only [Compiled.before]
      rw [step, goesOn, List.map_cons, stated]
      cases after with
      | nil => exact ⟨stopId s.id, rfl⟩
      | cons t after => exact ⟨id, congrArg (s :: ·) later⟩

/-- The flow of a workflow that steps are laid out in is written from its first step on. -/
theorem compile_eq_walk (h : w.Lays f trigger exit) (budget : Nat) :
    w.compile budget = walk w budget [] trigger (f.entry exit) := by
  obtain ⟨n, start, rfl⟩ : ∃ n, w.trigger? = some n ∧ n.id = trigger := by
    simp [Workflow.trigger?, h.nodes, Flow.workflow, Node.isA, Node.kind, Config.kind]
  rw [Workflow.compile, start]
  exact follow_of_route h.edges_trigger

/-- The workflow of settled steps gives these steps, each pause with its length. -/
theorem compile_workflow (h : w.Lays f trigger exit) (settled : f.Settled) {budget : Nat}
    (short : f.length ≤ budget) :
    ∃ id, (w.compile budget).steps = f.map Step.stated ++ [.stop id] := by
  rw [compile_eq_walk h]
  exact walk_workflow h settled budget [] trigger [] f rfl short (by simp)

end Compilation

end Journey
