import Journey.Proofs.Graph.Rules
import Journey.Runner.Compiled
import Journey.Simulation

/-!
# Journey.Proofs.Runner.Execution -- the runner passes the nodes that a dry run passes

A flow knows less than the workflow it was made from, and a dry run follows the workflow itself.  Yet,
where nothing fatal was found, the steps that the runner executes are the nodes that the dry run
passes, in the same order: the walk that writes the flow and the dry run leave every node by the same
edge, except at a condition, where the flow says of each outcome whether to go on, and all that go on
go on to one node.

The two are compared node by node (`run_walk`).  The walk stands on a node it has not seen, so the
nodes seen so far are distinct nodes of the workflow and a dry run that may pass as many nodes as there
are has not used up its allowance (`Underway`).  Where the flow halts the dry run goes to an exit or to
no node, and neither is a step (`acted_run_of_halt`).
-/

namespace Journey

set_option autoImplicit false

open Condition (pick)

namespace Workflow

/-- Whether the first clause of the condition with an identifier holds of a contact. -/
def firstHolds (w : Workflow) (contact : Contact) (id : String) : Bool :=
  (settings? w.nodes id).any fun c => c.clauses.head?.any fun c => Condition.holds c contact

/-- Whether the node with an identifier only starts or ends the workflow. -/
def isEnd (w : Workflow) (id : String) : Bool :=
  (settings? w.nodes id).any fun c => c.kind == .trigger || c.kind == .exit

/-- Every condition is connected on its first and on its last branch. -/
def Branched (w : Workflow) : Prop :=
  ∀ n ∈ w.nodes, n.isA .condition = true → ∀ handle ∈ [Handle.ifBranch, Handle.elseBranch],
    ∃ e ∈ w.edges, e.source = n.id ∧ e.sourceHandle = some handle

/-- The contact takes no else-if branch of the conditions with the identifiers. -/
def AvoidsElseIf (w : Workflow) (contact : Contact) (ids : List String) : Prop :=
  ∀ id ∈ ids, ∀ c, settings? w.nodes id = some (.condition c) →
    (pick c.canonical contact).kindName ≠ "else_if"

/-- Whether it only starts or ends the workflow is told by the node itself. -/
theorem isEnd_of_indexed? {w : Workflow} {id : String} {n : Node} (found : indexed? w.nodes id = some n) :
    w.isEnd n.id = (n.isA .trigger || n.isA .exit) := by
  obtain ⟨-, rfl⟩ := mem_of_indexed? found
  rw [isEnd, settings?_of_indexed? found]
  rfl

end Workflow

/-! ## Branches -/

namespace Condition

theorem pickFrom_succ_kindName {start : Nat} {contact : Contact} {cs : List Clause}
    (h : (pickFrom (start + 1) contact cs).kindName ≠ "else_if") :
    pickFrom (start + 1) contact cs = .fallThrough := by
  induction cs generalizing start with
  | nil => rfl
  | cons c cs ih =>
    rw [pickFrom] at h ⊢
    split
    · next holds =>
      rw [if_pos holds] at h
      exact absurd rfl h
    · next fails =>
      rw [if_neg fails] at h
      exact ih h

/-- Without the else-if branches, the first clause decides between the first branch and the last. -/
theorem pick_handle {c : ConditionConfig} {contact : Contact}
    (h : (pick c.canonical contact).kindName ≠ "else_if") :
    (pick c.canonical contact).handle =
      if c.canonical.head?.any (holds · contact) then Handle.ifBranch else Handle.elseBranch := by
  have first := head?_canonical (.object (c.row Key.written .kept))
  change c.canonical.head?.map (·.id) = _ at first
  cases clauses : c.canonical with
  | nil => rfl
  | cons d ds =>
    rw [clauses, List.head?_cons, Option.map_some, Option.some.injEq] at first
    rw [clauses, pick, pickFrom] at h
    rw [pick, pickFrom, List.head?_cons, Option.any_some]
    split
    · exact first
    · next fails =>
      rw [if_neg fails] at h
      rw [pickFrom_succ_kindName h]
      rfl

end Condition

namespace Compilation

/-- On the first and on the last branch of a condition, the walk and the dry run find the same edge, whatever
other handle the walk would look for. -/
theorem exists_edgeOn_of_branched {w : Workflow} (branched : w.Branched) {n : Node} (mem : n ∈ w.nodes)
    (condition : n.isA .condition = true) {handle : String}
    (branch : handle ∈ [Handle.ifBranch, Handle.elseBranch]) (other : String) :
    ∃ e, edgeOn (Workflow.edgesFrom w.edges n.id) [handle, other] = some e
      ∧ Simulation.edgeOn (Workflow.edgesFrom w.edges n.id) handle = some e := by
  obtain ⟨e, memE, source, on⟩ := branched n mem condition handle branch
  have onHandle : ((Workflow.edgesFrom w.edges n.id).find? fun e => e.sourceHandle == some handle).isSome
      = true := by
    rw [List.find?_isSome]
    exact ⟨e, by simp [Workflow.edgesFrom, memE, source], by simp [on]⟩
  obtain ⟨f, found⟩ := Option.isSome_iff_exists.1 onHandle
  exact ⟨f, by simp [edgeOn, found], by simp [Simulation.edgeOn, found]⟩

theorem onward_eq_none {nodes : List Node} {e : Edge} (h : onward nodes (some e) = none) {n : Node}
    (found : Workflow.indexed? nodes e.target = some n) : n.isA .exit = true := by
  simpa [onward, found] using h

end Compilation

/-! ## The nodes that a dry run passes -/

namespace Simulation

variable {w : Workflow} {contact : Contact} {rolls : Nat → Float} {k : Nat} {p : Progress}

/-- The nodes that a dry run passes between start and end. -/
def acted (w : Workflow) (s : Simulation) : List String := s.nodes.filter fun id => !w.isEnd id

/-- A node that is no condition and does not split is left by the first edge. -/
theorem decide_handle_eq_none {n : Node} (plain : n.isA .condition = false) (whole : n.isA .split = false)
    (contact : Contact) (roll : Float) : (decide n contact roll).2 = none := by
  cases config : n.config with
  | condition c => simp [Node.isA, Node.kind, config, Config.kind] at plain
  | split c => simp [Node.isA, Node.kind, config, Config.kind] at whole
  | _ => simp [decide, config]

/-- Where no else-if branch is taken, a condition is left on its first branch or on its last. -/
theorem nextEdge_condition {n : Node} {c : ConditionConfig} (config : n.config = .condition c)
    (plain : (pick c.canonical contact).kindName ≠ "else_if") {edges : List Edge} {a b : Edge}
    (first : edgeOn edges Handle.ifBranch = some a) (last : edgeOn edges Handle.elseBranch = some b)
    (roll : Float) :
    nextEdge edges (decide n contact roll).2
      = some (if c.canonical.head?.any (Condition.holds · contact) then a else b) := by
  simp only [decide, config, nextEdge, Condition.pick_handle plain]
  split
  · exact first
  · exact last

/-- A run that may pass a node visits the node it stands on. -/
theorem head?_run {n : Node} {current : String} (found : Workflow.indexed? w.nodes current = some n) :
    (run w contact rolls (k + 1) p current).nodes.head? = some n.id := by
  rw [run, found]
  simp only
  split
  · rfl
  · split <;> rfl

theorem nodes_run_last {n : Node} {current : String}
    (found : Workflow.indexed? w.nodes current = some n)
    (last : n.isA .exit = false →
      nextEdge (Workflow.edgesFrom w.edges n.id) (decide n contact (rolls p.rolled)).2 = none) :
    (run w contact rolls (k + 1) p current).nodes = [n.id] := by
  rw [run, found]
  by_cases exit : n.isA .exit = true
  · simp [exit, passing]
  · simp [last (by simpa using exit), exit, passing]

theorem nodes_run_next {n : Node} {e : Edge} {current : String}
    (found : Workflow.indexed? w.nodes current = some n) (inner : n.isA .exit = false)
    (next : nextEdge (Workflow.edgesFrom w.edges n.id) (decide n contact (rolls p.rolled)).2
      = some e) :
    ∃ q, (run w contact rolls (k + 1) p current).nodes
      = n.id :: (run w contact rolls k q e.target).nodes := by
  refine ⟨⟨p.step + 1, if n.isA .split then p.rolled + 1 else p.rolled, some e.id⟩, ?_⟩
  rw [run, found]
  simp [inner, next, passing]

/-- Where there is no node but an exit, no step is passed any more. -/
theorem acted_run_of_halt {current : String}
    (halts : ∀ n, Workflow.indexed? w.nodes current = some n → n.isA .exit = true) :
    acted w (run w contact rolls k p current) = [] := by
  cases k with
  | zero => rfl
  | succ k =>
    cases found : Workflow.indexed? w.nodes current with
    | none => simp [run, found, acted]
    | some n =>
      have exit := halts n found
      rw [acted, nodes_run_last found (fun inner => by simp [exit] at inner)]
      simp [Workflow.isEnd_of_indexed? found, exit]

end Simulation

/-! ## The walk and the dry run side by side -/

namespace Workflow

/-- A dry run that may pass as many nodes as have not been seen. -/
structure Underway (w : Workflow) (seen : List String) (k : Nat) : Prop where
  distinct : seen.Nodup
  known : ∀ id ∈ seen, id ∈ w.nodeIds
  room : w.nodes.length ≤ k + seen.length

theorem Underway.enter {w : Workflow} {seen : List String} {k : Nat} {id : String}
    (h : w.Underway seen k) (new : id ∉ seen) (node : id ∈ w.nodeIds) :
    ∃ j, k = j + 1 ∧ w.Underway (id :: seen) j := by
  have distinct : (id :: seen).Nodup := List.nodup_cons.2 ⟨new, h.distinct⟩
  have known : ∀ i ∈ id :: seen, i ∈ w.nodeIds := List.forall_mem_cons.2 ⟨node, h.known⟩
  have fits := Text.length_le_of_subset distinct known
  have room := h.room
  rw [nodeIds, List.length_map, List.length_cons] at fits
  cases k with
  | zero => omega
  | succ j => exact ⟨j, rfl, distinct, known, by rw [List.length_cons]; omega⟩

theorem AvoidsElseIf.tail {w : Workflow} {contact : Contact} {id : String} {ids : List String}
    (h : w.AvoidsElseIf contact (id :: ids)) : w.AvoidsElseIf contact ids :=
  fun i mem => h i (List.mem_cons_of_mem _ mem)

end Workflow

namespace Compilation

open Simulation (acted)

variable {w : Workflow} {contact : Contact} {rolls : Nat → Float}

/-- What the walk and the dry run have in common from a node on. -/
def InStep (w : Workflow) (contact : Contact) (rolls : Nat → Float) (seen : List String) (k : Nat)
    (c : Compiled) (current : String) : Prop :=
  w.Underway seen k → c.hasFatal = false →
    ∀ p, w.AvoidsElseIf contact (Simulation.run w contact rolls k p current).nodes →
      Flow.run (w.firstHolds contact) c.steps
        = acted w (Simulation.run w contact rolls k p current)

variable {seen : List String} {j : Nat} {n : Node} {current : String} {rest : String → Compiled}

/-- A node that acts and is left by its first edge keeps the walk and the dry run in step. -/
theorem inStep_follow {s : Step} (found : Workflow.indexed? w.nodes current = some n)
    (acts : w.isEnd n.id = false) (inner : n.isA .exit = false)
    (first : ∀ roll, (Simulation.decide n contact roll).2 = none)
    (name : s.id = n.id)
    (goesOn : ∀ c, Flow.run (w.firstHolds contact) (s :: c)
      = s.id :: Flow.run (w.firstHolds contact) c)
    (under : w.Underway seen j) (ih : ∀ id, InStep w contact rolls seen j (rest id) id)
    (fine : (Compiled.before s [] (follow w n rest)).hasFatal = false) (p : Simulation.Progress)
    (avoids : w.AvoidsElseIf contact (Simulation.run w contact rolls (j + 1) p current).nodes) :
    Flow.run (w.firstHolds contact) (Compiled.before s [] (follow w n rest)).steps
      = acted w (Simulation.run w contact rolls (j + 1) p current) := by
  rw [Compiled.hasFatal_before, List.any_nil, Bool.false_or] at fine
  rw [Compiled.before, goesOn, name]
  cases out : (Workflow.edgesFrom w.edges n.id).head? with
  | none =>
    have nodes : (Simulation.run w contact rolls (j + 1) p current).nodes = [n.id] := by
      refine Simulation.nodes_run_last found fun _ => ?_
      rw [first, Simulation.nextEdge, out]
    rw [acted, nodes]
    simp [follow, out, acts, Compiled.stopped, Step.stop, Flow.run]
  | some e =>
    have next : Simulation.nextEdge (Workflow.edgesFrom w.edges n.id)
        (Simulation.decide n contact (rolls p.rolled)).2 = some e := by
      rw [first, Simulation.nextEdge, out]
    obtain ⟨q, nodes⟩ := Simulation.nodes_run_next found inner next
    rw [nodes] at avoids
    rw [follow, out] at fine ⊢
    rw [acted, nodes, List.filter_cons_of_pos (by simp [acts]), ih e.target under fine q avoids.tail]
    rfl

theorem run_condition (outcome : String → Bool) (id name : String) (rule : RunnerRule)
    (value : String) (ifNode elseNode : Option Node) (c : Flow) :
    Flow.run outcome (⟨id, name, .condition rule value (verdict ifNode) (verdict elseNode)⟩ :: c)
      = id :: (if (if outcome id then ifNode else elseNode).isSome then Flow.run outcome c else []) := by
  rw [Flow.run]
  cases outcome id <;> cases ifNode <;> cases elseNode <;> rfl

/-- From a condition whose branches do not part, the walk goes on to the node of each branch that goes
on. -/
theorem continuation_eq {plan : ConditionPlan} {a : Node}
    (fine : (continuation plan n rest).hasFatal = false)
    (one : plan.ifNode = some a ∨ plan.elseNode = some a) :
    continuation plan n rest = rest a.id := by
  unfold continuation at fine ⊢
  split
  · next b c ifNode elseNode =>
    rw [ifNode, elseNode] at fine one
    simp only at fine
    split at fine
    · next same =>
      rw [if_pos same]
      rcases one with h | h <;> cases h
      · rfl
      · rw [same]
    · simp [Finding.isFatal, Finding.severity] at fine
  · next b ifNode elseNode =>
    rw [ifNode, elseNode] at one
    rcases one with h | h <;> cases h
    rfl
  · next b ifNode elseNode =>
    rw [ifNode, elseNode] at one
    rcases one with h | h <;> cases h
    rfl
  · next ifNode elseNode =>
    rw [ifNode, elseNode] at one
    rcases one with h | h <;> cases h

/-- A condition keeps the walk and the dry run in step. -/
theorem inStep_condition {c : ConditionConfig}
    (found : Workflow.indexed? w.nodes current = some n) (config : n.config = .condition c)
    (branched : w.Branched) (under : w.Underway seen j)
    (ih : ∀ id, InStep w contact rolls seen j (rest id) id) {plan : ConditionPlan}
    (planned : plan = planCondition w.nodes n c.canonical (Workflow.edgesFrom w.edges n.id))
    (fine : (Compiled.before plan.step plan.findings (continuation plan n rest)).hasFatal = false)
    (p : Simulation.Progress)
    (avoids : w.AvoidsElseIf contact (Simulation.run w contact rolls (j + 1) p current).nodes) :
    Flow.run (w.firstHolds contact)
        (Compiled.before plan.step plan.findings (continuation plan n rest)).steps
      = acted w (Simulation.run w contact rolls (j + 1) p current) := by
  obtain ⟨mem, rfl⟩ := Workflow.mem_of_indexed? found
  have kind : n.kind = .condition := by simp [Node.kind, config, Config.kind]
  have condition : n.isA .condition = true := by simp [Node.isA, kind]
  have inner : n.isA .exit = false := by simp [Node.isA, kind]
  have acts : w.isEnd n.id = false := by simp [Workflow.isEnd_of_indexed? found, Node.isA, kind]
  have settings : Workflow.settings? w.nodes n.id = some (.condition c) :=
    config ▸ Workflow.settings?_of_indexed? found
  have holds : w.firstHolds contact n.id
      = c.canonical.head?.any (Condition.holds · contact) := by
    rw [Workflow.firstHolds, settings]
    rfl
  obtain ⟨ifEdge, ifFound, ifSame⟩ :=
    exists_edgeOn_of_branched branched mem condition List.mem_cons_self "yes"
  obtain ⟨elseEdge, elseFound, elseSame⟩ :=
    exists_edgeOn_of_branched branched mem condition (List.mem_cons_of_mem _ List.mem_cons_self) "no"
  -- the branch that is taken, in the flow and in the dry run
  let taken : Edge := if w.firstHolds contact n.id then ifEdge else elseEdge
  have goal : Flow.run (w.firstHolds contact)
        (Compiled.before plan.step plan.findings (continuation plan n rest)).steps
      = n.id :: (if (onward w.nodes (some taken)).isSome
          then Flow.run (w.firstHolds contact) (continuation plan n rest).steps else []) := by
    subst planned
    simp only [Compiled.before, planCondition, ifFound, elseFound, run_condition, taken]
    split <;> rfl
  have plain : (pick c.canonical contact).kindName ≠ "else_if" :=
    avoids n.id (List.mem_of_head? (Simulation.head?_run found)) c settings
  have next : Simulation.nextEdge (Workflow.edgesFrom w.edges n.id)
      (Simulation.decide n contact (rolls p.rolled)).2 = some taken := by
    rw [Simulation.nextEdge_condition config plain ifSame elseSame, ← holds]
  obtain ⟨q, nodes⟩ := Simulation.nodes_run_next found inner next
  rw [nodes] at avoids
  rw [goal, acted, nodes, List.filter_cons_of_pos (by simp [acts])]
  congr 1
  cases onwards : onward w.nodes (some taken) with
  | none => exact (Simulation.acted_run_of_halt fun m there => onward_eq_none onwards there).symm
  | some a =>
    obtain ⟨there, -⟩ := onward_eq_some_iff.1 onwards
    have name := (Workflow.mem_of_indexed? there).2
    have one : plan.ifNode = some a ∨ plan.elseNode = some a := by
      subst planned
      simp only [planCondition, ifFound, elseFound]
      simp only [taken] at onwards
      split at onwards
      · exact .inl onwards
      · exact .inr onwards
    rw [Compiled.hasFatal_before, Bool.or_eq_false_iff] at fine
    have onto : continuation plan n rest = rest taken.target := name ▸ continuation_eq fine.2 one
    rw [onto] at fine ⊢
    exact ih taken.target under fine.2 q avoids.tail

/-- From every node it has not seen, the walk writes the steps that the dry run passes. -/
theorem run_walk {t : Node} (distinct : w.nodeIds.Nodup) (branched : w.Branched)
    (trigger : w.trigger? = some t) (budget : Nat) (visited : List String) (k : Nat)
    (last current : String) :
    InStep w contact rolls (visited ++ [t.id]) k (walk w budget visited last current) current := by
  induction budget generalizing visited k last current with
  | zero =>
    intro _ fine
    simp [walk, Finding.isFatal, Finding.severity] at fine
  | succ budget ih =>
    intro under fine p avoids
    unfold walk at fine ⊢
    split at fine
    · simp [Finding.isFatal, Finding.severity] at fine
    · next new =>
      rw [if_neg new]
      split at fine
      · simp [Finding.isFatal, Finding.severity] at fine
      · next n found =>
        obtain ⟨mem, same⟩ := Workflow.mem_of_indexed? found
        have atEnd := Workflow.isEnd_of_indexed? found
        -- a node that starts nothing is not the trigger, and so has not been seen
        have entered (starts : n.isA .trigger = false) :
            ∃ j, k = j + 1 ∧ w.Underway (current :: visited ++ [t.id]) j := by
          refine under.enter ?_ (same ▸ List.mem_map_of_mem mem)
          rw [List.mem_append, List.mem_singleton]
          rintro (seen | isTrigger)
          · exact new (by simpa using seen)
          · have memT := List.mem_of_find?_eq_some trigger
            have isA := List.find?_some trigger
            rw [← List.inj_on_of_nodup_map distinct mem memT (same.trans isTrigger)] at isA
            simp [starts] at isA
        simp only at fine ⊢
        cases config : n.config with
        | trigger c | split c | webhook c => simp [config, Finding.isFatal, Finding.severity] at fine
        | sendEmail c | wait c =>
          simp only [config] at fine ⊢
          obtain ⟨j, rfl, further⟩ := entered (by simp [Node.isA, Node.kind, config, Config.kind])
          refine inStep_follow found ?_ ?_ ?_ rfl (fun _ => rfl) further
            (fun id => ih _ j n.id id) fine p avoids
          · simp [atEnd, Node.isA, Node.kind, config, Config.kind]
          · simp [Node.isA, Node.kind, config, Config.kind]
          · exact Simulation.decide_handle_eq_none (by simp [Node.isA, Node.kind, config, Config.kind])
              (by simp [Node.isA, Node.kind, config, Config.kind]) contact
        | condition c =>
          simp only [config] at fine ⊢
          obtain ⟨j, rfl, further⟩ := entered (by simp [Node.isA, Node.kind, config, Config.kind])
          exact inStep_condition found config branched further (fun id => ih _ j n.id id) rfl fine p
            avoids
        | exit c =>
          refine (Simulation.acted_run_of_halt fun m there => ?_).symm
          rw [found, Option.some.injEq] at there
          simp [← there, Node.isA, Node.kind, config, Config.kind]

end Compilation

/-- A message, then a pause for those who opened it, and the end for the others. -/
def Workflow.followUp : Workflow :=
  { id := "w"
    nodes := [{ id := "t", config := .trigger {} }, { id := "m", config := .sendEmail {} },
      { id := "c", config := .condition {} }, { id := "p", config := .wait {} },
      { id := "x", config := .exit {} }]
    edges := [{ id := "e1", source := "t", target := "m" }, { id := "e2", source := "m", target := "c" },
      { id := "e3", source := "c", target := "p", sourceHandle := some "if" },
      { id := "e4", source := "c", target := "x", sourceHandle := some "else" },
      { id := "e5", source := "p", target := "x" }] }

end Journey
