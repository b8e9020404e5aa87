import Journey.Proofs.Condition.Reading
import Journey.Proofs.Graph.Rules
import Journey.Runner.Compiled

/-!
# Journey.Proofs.Runner.Settled -- the steps that a walk writes

`Flow.Settled` describes the steps that a walk can write before the stop: they have distinct names that are
not empty, a condition goes on exactly if there is a step after it, and no step says a thing that the
runner's language has another word for.

Main statements: a walk without fatal finding writes settled steps and a stop (`settled_walk`), and so does
the compilation of a workflow (`settled_compile`).
-/

namespace Journey

set_option autoImplicit false

/-- An action in the words in which a walk says it. -/
def Action.Settled : Action → Prop
  | .sendEmail _ => True
  | .wait duration _ => Compilation.handedOn duration = duration
  | .condition rule value _ _ => rule = .hasReplied → value = ""
  | .stop => False

theorem Action.Settled.isStop {a : Action} (settled : a.Settled) : a.isStop = false := by
  cases a with
  | stop => exact settled.elim
  | _ => rfl

/-- A condition goes on exactly if there is more. -/
def Action.Suits (more : Bool) : Action → Prop
  | .condition _ _ ifTrue ifFalse => (ifTrue == .goOn || ifFalse == .goOn) = more
  | _ => True

/-- Every condition goes on exactly if there is a step after it. -/
def Flow.Chained : Flow → Prop
  | [] => True
  | s :: rest => s.action.Suits (!rest.isEmpty) ∧ Chained rest

/-- Steps as a walk writes them before the stop. -/
structure Flow.Settled (f : Flow) : Prop where
  distinct : (f.map (·.id)).Nodup
  named : ∀ s ∈ f, s.id ≠ "" ∧ s.name ≠ ""
  actions : ∀ s ∈ f, s.action.Settled
  chained : f.Chained

theorem Flow.settled_nil : Flow.Settled [] := ⟨List.nodup_nil, by simp, by simp, trivial⟩

theorem Flow.settled_cons_iff {s : Step} {f : Flow} :
    Flow.Settled (s :: f) ↔ s.id ∉ f.map (·.id) ∧ (s.id ≠ "" ∧ s.name ≠ "") ∧ s.action.Settled
      ∧ s.action.Suits (!f.isEmpty) ∧ f.Settled := by
  constructor
  · rintro ⟨distinct, named, actions, suits, chained⟩
    obtain ⟨new, distinct⟩ := List.nodup_cons.1 distinct
    obtain ⟨name, named⟩ := List.forall_mem_cons.1 named
    obtain ⟨action, actions⟩ := List.forall_mem_cons.1 actions
    exact ⟨new, name, action, suits, distinct, named, actions, chained⟩
  · rintro ⟨new, name, action, suits, distinct, named, actions, chained⟩
    exact ⟨List.nodup_cons.2 ⟨new, distinct⟩, List.forall_mem_cons.2 ⟨name, named⟩,
      List.forall_mem_cons.2 ⟨action, actions⟩, suits, chained⟩

/-! ## A walk writes settled steps -/

namespace Compilation

variable {w : Workflow}

theorem handedOn_idem (duration : Option Float) : handedOn (handedOn duration) = handedOn duration := by
  cases duration with
  | none => rfl
  | some x => by_cases zero : (x == 0.0) = true <;> simp [handedOn, zero]

theorem forKey?_ne_hasReplied (key : String) : RunnerRule.forKey? key ≠ some .hasReplied := by
  intro known
  obtain ⟨k, found, rule⟩ := Option.map_eq_some_iff.1 known
  have mem := List.mem_of_find?_eq_some found
  simp only [RunnerRule.keywords, List.mem_cons, List.not_mem_nil, or_false] at mem
  rcases mem with rfl | rfl | rfl <;> cases rule

/-- Where the runner tests for a reply there is nothing to compare with. -/
theorem settled_forRunner (c : Clause) (ifTrue ifFalse : Verdict) :
    (Action.condition c.forRunner.1 c.forRunner.2.1 ifTrue ifFalse).Settled := by
  intro replied
  unfold Clause.forRunner at replied ⊢
  split
  · next property =>
    rw [property] at replied
    simp only at replied ⊢
    split
    · next r known =>
      rw [known] at replied
      exact absurd (known.trans (congrArg some replied)) (forKey?_ne_hasReplied _)
    · rfl
  · rfl

theorem ite_isEmpty_ne_empty {s t : String} (h : t ≠ "") : (if s.isEmpty then t else s) ≠ "" := by
  split
  · exact h
  · next full => simpa using full

/-- Steps and a stop, of a walk that passes no more nodes than it may and none that it has passed. -/
structure Writes (budget : Nat) (visited : List String) (steps f : Flow) : Prop where
  ends : ∃ id, steps = f ++ [.stop id]
  settled : f.Settled
  short : f.length ≤ budget
  new : ∀ s ∈ f, s.id ∉ visited

theorem Writes.stop (budget : Nat) (visited : List String) (id : String) :
    Writes budget visited [.stop id] [] :=
  ⟨⟨id, rfl⟩, Flow.settled_nil, Nat.zero_le _, by simp⟩

theorem Writes.cons {budget : Nat} {visited : List String} {s : Step} {steps f : Flow}
    (h : Writes budget (s.id :: visited) steps f) (unseen : s.id ∉ visited)
    (named : s.id ≠ "" ∧ s.name ≠ "") (action : s.action.Settled)
    (suits : s.action.Suits (!f.isEmpty)) : Writes (budget + 1) visited (s :: steps) (s :: f) := by
  obtain ⟨⟨id, ends⟩, settled, short, new⟩ := h
  refine ⟨⟨id, by rw [ends, List.cons_append]⟩, ?_, by simpa using short, ?_⟩
  · refine Flow.settled_cons_iff.2 ⟨fun again => ?_, named, action, suits, settled⟩
    obtain ⟨t, mem, same⟩ := List.mem_map.1 again
    exact new t mem (by simp [same])
  · refine List.forall_mem_cons.2 ⟨unseen, fun t mem seen => ?_⟩
    exact new t mem (List.mem_cons_of_mem _ seen)

theorem step_planCondition (nodes : List Node) (n : Node) (clauses : List Clause)
    (edges : List Edge) :
    (planCondition nodes n clauses edges).step =
      { id := n.id, name := if n.title.isEmpty then "Condition" else n.title
        action := .condition (clauses.head?.getD {}).forRunner.1 (clauses.head?.getD {}).forRunner.2.1
          (verdict (planCondition nodes n clauses edges).ifNode)
          (verdict (planCondition nodes n clauses edges).elseNode) } := rfl

theorem suits_planCondition {n : Node} {clauses : List Clause} {edges : List Edge} {more : Bool}
    {plan : ConditionPlan} (planned : plan = planCondition w.nodes n clauses edges)
    (h : (plan.ifNode.isSome || plan.elseNode.isSome) = more) : plan.step.action.Suits more := by
  subst planned
  rw [← h]
  simp only [planCondition, Action.Suits, verdict]
  split <;> split <;> simp_all

theorem indexed?_of_onward {nodes : List Node} {e : Option Edge} {n : Node}
    (h : onward nodes e = some n) :
    Workflow.indexed? nodes n.id = some n ∧ n.isA .exit = false := by
  cases e with
  | none => cases h
  | some e =>
    obtain ⟨found, inner⟩ := onward_eq_some_iff.1 h
    rw [(Workflow.mem_of_indexed? found).2]
    exact ⟨found, inner⟩

/-- After a node that is left by its first edge there are steps or there is the stop. -/
theorem settled_follow {n : Node} {budget : Nat} {visited : List String} {rest : String → Compiled}
    (fine : (follow w n rest).hasFatal = false)
    (ih : ∀ id, (rest id).hasFatal = false → ∃ f, Writes budget visited (rest id).steps f) :
    ∃ f, Writes budget visited (follow w n rest).steps f := by
  unfold follow at fine ⊢
  split
  · next e out =>
    simp only [out] at fine
    exact ih _ fine
  · exact ⟨[], .stop ..⟩

/-- After a condition there are steps exactly if one of its branches goes on. -/
theorem settled_continuation {n : Node} {clauses : List Clause} {edges : List Edge} {budget : Nat}
    {visited : List String} {rest : String → Compiled} {plan : ConditionPlan}
    (planned : plan = planCondition w.nodes n clauses edges)
    (fine : (continuation plan n rest).hasFatal = false)
    (ih : ∀ id, (rest id).hasFatal = false → ∃ f, Writes budget visited (rest id).steps f
      ∧ ∀ n, Workflow.indexed? w.nodes id = some n → n.isA .exit = false → f ≠ []) :
    ∃ f, Writes budget visited (continuation plan n rest).steps f
      ∧ (plan.ifNode.isSome || plan.elseNode.isSome) = !f.isEmpty := by
  have onto (a : Node) (one : plan.ifNode = some a ∨ plan.elseNode = some a)
      (fine : (rest a.id).hasFatal = false) : ∃ f, Writes budget visited (rest a.id).steps f
        ∧ true = !f.isEmpty := by
    have there : Workflow.indexed? w.nodes a.id = some a ∧ a.isA .exit = false := by
      subst planned
      rcases one with h | h <;> exact indexed?_of_onward h
    obtain ⟨f, writes, more⟩ := ih a.id fine
    exact ⟨f, writes, by simpa using more a there.1 there.2⟩
  unfold continuation at fine ⊢
  split
  · next a b ifNode elseNode =>
    simp only [ifNode, elseNode] at fine ⊢
    split at fine
    · next same =>
      rw [if_pos same]
      exact onto a (.inl ifNode) fine
    · simp [Finding.isFatal, Finding.severity] at fine
  · next a ifNode elseNode =>
    simp only [ifNode, elseNode] at fine ⊢
    exact onto a (.inl ifNode) fine
  · next b ifNode elseNode =>
    simp only [ifNode, elseNode] at fine ⊢
    exact onto b (.inr elseNode) fine
  · next ifNode elseNode =>
    rw [ifNode, elseNode]
    exact ⟨[], .stop .., rfl⟩

/-- A walk without fatal finding writes settled steps, and at least one if it starts at a node that is
no exit. -/
theorem settled_walk (named : ∀ n ∈ w.nodes, n.id ≠ "") (budget : Nat) (visited : List String)
    (last current : String) (fine : (walk w budget visited last current).hasFatal = false) :
    ∃ f, Writes budget visited (walk w budget visited last current).steps f
      ∧ ∀ n, Workflow.indexed? w.nodes current = some n → n.isA .exit = false → f ≠ [] := by
  induction budget generalizing visited last current with
  | zero => simp [walk, Finding.isFatal, Finding.severity] at fine
  | succ budget ih =>
    unfold walk at fine ⊢
    split at fine
    · simp [Finding.isFatal, Finding.severity] at fine
    · next new =>
      rw [if_neg new]
      split at fine
      · simp [Finding.isFatal, Finding.severity] at fine
      · next n found =>
        obtain ⟨mem, rfl⟩ := Workflow.mem_of_indexed? found
        have unseen : n.id ∉ visited := by simpa using new
        have followed (fine : (follow w n (walk w budget (n.id :: visited) n.id)).hasFatal = false) :=
          settled_follow fine fun id fine => (ih _ _ id fine).imp fun _ => And.left
        simp only at fine ⊢
        cases config : n.config with
        | trigger c | split c | webhook c => simp [config, Finding.isFatal, Finding.severity] at fine
        | sendEmail c =>
          simp only [config, Compiled.hasFatal_before, List.any_nil, Bool.false_or] at fine
          obtain ⟨f, writes⟩ := followed fine
          refine ⟨emailStep n c :: f, writes.cons unseen ⟨named n mem, ?_⟩ trivial trivial, by simp⟩
          exact ite_isEmpty_ne_empty (by decide)
        | wait c =>
          simp only [config, Compiled.hasFatal_before, List.any_nil, Bool.false_or] at fine
          obtain ⟨f, writes⟩ := followed fine
          refine ⟨waitStep n c :: f, writes.cons unseen ⟨named n mem, ?_⟩ (handedOn_idem _) trivial,
            by simp⟩
          exact ite_isEmpty_ne_empty (by decide)
        | condition c =>
          simp only [config, Compiled.hasFatal_before, Bool.or_eq_false_iff] at fine
          let plan := planCondition w.nodes n c.canonical (Workflow.edgesFrom w.edges n.id)
          obtain ⟨f, writes, goesOn⟩ :=
            settled_continuation (n := n) rfl fine.2 fun id fine => ih _ _ id fine
          refine ⟨plan.step :: f, writes.cons unseen ⟨named n mem, ?_⟩ ?_ ?_, by simp⟩
          · rw [step_planCondition]
            exact ite_isEmpty_ne_empty (by decide)
          · rw [step_planCondition]
            exact settled_forRunner _ _ _
          · exact suits_planCondition rfl goesOn
        | exit c =>
          refine ⟨[], .stop .., fun m there inner => ?_⟩
          rw [found, Option.some.injEq] at there
          simp [← there, Node.isA, Node.kind, config, Config.kind] at inner

/-- The flow of a workflow without fatal finding is settled steps and a stop. -/
theorem settled_compile (named : ∀ n ∈ w.nodes, n.id ≠ "") {budget : Nat}
    (fine : (w.compile budget).hasFatal = false) :
    ∃ (f : Flow) (id : String), (w.compile budget).steps = f ++ [.stop id] ∧ f.Settled
      ∧ f.length ≤ budget := by
  unfold Workflow.compile at fine ⊢
  split at fine
  · simp [Finding.isFatal, Finding.severity] at fine
  · next t _ =>
    unfold follow at fine ⊢
    split at fine
    · obtain ⟨f, ⟨⟨id, steps⟩, settled, short, -⟩, -⟩ := settled_walk named _ _ _ _ fine
      exact ⟨f, id, steps, settled, short⟩
    · exact ⟨[], stopId t.id, rfl, Flow.settled_nil, Nat.zero_le _⟩

end Compilation

end Journey
