import Journey.Proofs.Runner.Execution
import Journey.Proofs.Runner.Recompiled
import Journey.Proofs.Workflow.Legible

/-!
# Journey.Proofs.Runner.Written -- the shape of every flow

Whatever workflow a flow is written for, with loops, with edges to no node, with identifiers that several
nodes share, the flow has one stop, at its end, and before it one step for every node that the walk passed.
No node is passed twice, and no more nodes than the walk may pass.  At most one finding is fatal, and it is
the last.

Where nothing is fatal, the walk came to rest: at an exit, at a node from which no edge leads on, or at a
condition of which no branch goes on (`Workflow.AtRest`).  The nodes it passed form a path from the trigger to
there (`Workflow.Passes`).

All this is said of what is written once a node is left, given the nodes passed before
(`Compilation.Written`).  A step in front of it says the same of the node before (`Written.before`), so it
holds of the walk from every node on (`written_walk`), and of the whole flow (`written_compile`).  There is a flow
exactly if the conditions on the way can be read.  Main statement: `written_tryCompile`.
-/

namespace Journey

set_option autoImplicit false

namespace Workflow

open Compilation (edgeOn onward)

/-- The branches of a condition that a flow knows, each with the handles on which its edge is looked for. -/
def flowBranches : List (List String) := [[Handle.ifBranch, "yes"], [Handle.elseBranch, "no"]]

/-- The walk leaves a node for another one: from a condition it goes on along one of its branches, and from
every other node along the first edge. -/
def LeavesFor (w : Workflow) (n m : Node) : Prop :=
  if n.isA .condition then
    ∃ handles ∈ flowBranches, onward w.nodes (edgeOn (edgesFrom w.edges n.id) handles) = some m
  else ∃ e, (edgesFrom w.edges n.id).head? = some e ∧ indexed? w.nodes e.target = some m

/-- A node at which a walk comes to rest: an exit, a node from which no edge leads on, or a condition each of
whose branches has no edge, or one to an exit or to no node. -/
def AtRest (w : Workflow) (n : Node) : Prop :=
  n.isA .exit = true ∨ edgesFrom w.edges n.id = []
    ∨ n.isA .condition = true ∧ ∀ handles ∈ flowBranches, ∀ e,
        edgeOn (edgesFrom w.edges n.id) handles = some e →
          ∀ m, indexed? w.nodes e.target = some m → m.isA .exit = true

/-- The kinds of nodes for which a step is written. -/
def stepKinds : List NodeKind := [.sendEmail, .wait, .condition]

/-- The nodes that the walk passes after a node until it comes to rest, and the steps that are written for
them. -/
structure Passes (w : Workflow) (start : Node) (path : List Node) (steps : Flow) : Prop where
  onward : (start :: path).IsChain w.LeavesFor
  rests : ∃ n, (start :: path).getLast? = some n ∧ w.AtRest n
  steps : steps.map (·.id) = (path.filter fun n => stepKinds.contains n.kind).map (·.id)

variable {w : Workflow} {n m : Node} {path : List Node} {steps : Flow}

/-- The walk comes to rest at the node it has left. -/
theorem AtRest.passes (h : w.AtRest n) : w.Passes n [] [] := ⟨.singleton n, ⟨n, rfl, h⟩, rfl⟩

/-- A node in front of the path. -/
theorem Passes.cons (h : w.Passes m path steps) (leaves : w.LeavesFor n m) {own : Flow}
    (step : own.map (·.id) = if stepKinds.contains m.kind then [m.id] else []) :
    w.Passes n (m :: path) (own ++ steps) where
  onward := List.isChain_cons_cons.2 ⟨leaves, h.onward⟩
  rests := by simpa using h.rests
  steps := by
    rw [List.map_append, step, h.steps, List.filter_cons]
    split <;> rfl

end Workflow

namespace Compilation

open Workflow (LeavesFor AtRest Passes flowBranches stepKinds indexed? edgesFrom)

/-- What is written once a node is left, when some nodes have been passed and a number of nodes may be passed
still. -/
structure Written (w : Workflow) (budget : Nat) (visited : List String) (start : Option Node) (c : Compiled) :
    Prop where
  stop : c.steps.EndsInStop
  length : c.steps.dropLast.length ≤ budget
  distinct : (c.steps.dropLast.map (·.id)).Nodup
  new : ∀ s ∈ c.steps.dropLast, s.id ∉ visited
  nodes : ∀ s ∈ c.steps.dropLast,
    ∃ n ∈ w.nodes, n.id = s.id ∧ n.kind ∈ stepKinds ∧ s.action.typeName = n.kind.name
  fatal : ∀ f ∈ c.findings.dropLast, f.isFatal = false
  rest : c.hasFatal = false → ∃ n path, start = some n ∧ w.Passes n path c.steps.dropLast

variable {w : Workflow} {k : Nat} {visited : List String} {start : Option Node} {n m : Node}
  {rest : String → Compiled}

/-- A walk that ends with a fatal finding. -/
theorem written_fatal {f : Finding} (fatal : f.isFatal = true) (id : String) :
    Written w k visited start (.stopped id [f]) :=
  ⟨endsInStop_stopped id [f], Nat.zero_le _, List.nodup_nil, by simp [Compiled.stopped],
    by simp [Compiled.stopped], by simp [Compiled.stopped], fun fine => by simp [fatal] at fine⟩

/-- A walk that has come to rest. -/
theorem written_stopped {path : List Node} (passes : w.Passes n path []) (id : String) {findings : List Finding}
    (advisory : ∀ f ∈ findings, f.isFatal = false) :
    Written w k visited (some n) (.stopped id findings) :=
  ⟨endsInStop_stopped id findings, Nat.zero_le _, List.nodup_nil, by simp [Compiled.stopped],
    by simp [Compiled.stopped], fun f mem => advisory f (List.dropLast_subset _ mem),
    fun _ => ⟨n, path, rfl, passes⟩⟩

/-- What is not the last finding is the own one of a step, or not the last of the others. -/
theorem mem_dropLast_append {α : Type} {a : α} {as bs : List α} (mem : a ∈ (as ++ bs).dropLast) :
    a ∈ as ∨ a ∈ bs.dropLast := by
  rw [List.dropLast_append] at mem
  split at mem
  · exact .inl (List.dropLast_subset _ mem)
  · exact List.mem_append.1 mem

/-- What is written for a node does not stop. -/
theorem isStop_eq_false {a : Action} {kind : NodeKind} (known : kind ∈ stepKinds)
    (type : a.typeName = kind.name) : a.isStop = false := by
  cases a with
  | stop =>
    simp only [stepKinds, List.mem_cons, List.not_mem_nil, or_false] at known
    rcases known with rfl | rfl | rfl <;> exact absurd type (by decide)
  | _ => rfl

/-- A step in front of what is written once its node is left. -/
theorem Written.before {c : Compiled} (h : Written w k (m.id :: visited) (some m) c) {s : Step}
    (name : s.id = m.id) (node : m ∈ w.nodes) {kind : NodeKind} (isKind : m.kind = kind)
    (known : kind ∈ stepKinds) (type : s.action.typeName = kind.name) (new : m.id ∉ visited)
    {findings : List Finding} (advisory : ∀ f ∈ findings, f.isFatal = false) (leaves : w.LeavesFor n m) :
    Written w (k + 1) visited (some n) (.before s findings c) := by
  subst isKind
  have steps : (Compiled.before s findings c).steps.dropLast = s :: c.steps.dropLast := by
    obtain ⟨written, id, eq, -⟩ := h.stop
    rw [Compiled.before, List.dropLast_cons_of_ne_nil (by simp [eq])]
  refine ⟨endsInStop_before (isStop_eq_false known type) h.stop, ?_, ?_, ?_, ?_, ?_, fun fine => ?_⟩
  · rw [steps]
    exact Nat.succ_le_succ h.length
  · rw [steps, List.map_cons, List.nodup_cons]
    refine ⟨fun again => ?_, h.distinct⟩
    obtain ⟨t, mem, same⟩ := List.mem_map.1 again
    exact h.new t mem (by rw [same, name]; exact List.mem_cons_self)
  · rw [steps, List.forall_mem_cons]
    exact ⟨name ▸ new, fun t mem seen => h.new t mem (List.mem_cons_of_mem _ seen)⟩
  · rw [steps, List.forall_mem_cons]
    exact ⟨⟨m, node, name.symm, known, type⟩, h.nodes⟩
  · intro f mem
    exact (mem_dropLast_append mem).elim (advisory f) (h.fatal f)
  · rw [Compiled.hasFatal_before, Bool.or_eq_false_iff] at fine
    obtain ⟨_, path, same, passes⟩ := h.rest fine.2
    cases same
    have own : [s].map (·.id) = if stepKinds.contains m.kind then [m.id] else [] := by
      simp [name, known]
    rw [steps]
    exact ⟨n, m :: path, rfl, passes.cons leaves own⟩

/-- The walk along the edge that leaves a node first. -/
theorem written_follow (other : n.isA .condition = false)
    (onward : ∀ id, (∀ m, indexed? w.nodes id = some m → w.LeavesFor n m) →
      Written w k visited (some n) (rest id)) : Written w k visited (some n) (follow w n rest) := by
  unfold follow
  split
  · next e out =>
    refine onward e.target fun m found => ?_
    rw [LeavesFor, if_neg (by simp [other])]
    exact ⟨e, out, found⟩
  · next absent =>
    have out : edgesFrom w.edges n.id = [] := List.head?_eq_none_iff.1 absent
    exact written_stopped (AtRest.passes (.inr (.inl out))) _ (by simp [Finding.isFatal, Finding.severity])

/-- The walk from a condition: on along its branches, or to rest if none goes on. -/
theorem written_continuation (condition : n.isA .condition = true) (clauses : List Clause)
    (onward : ∀ id, (∀ m, indexed? w.nodes id = some m → w.LeavesFor n m) →
      Written w k visited (some n) (rest id)) :
    Written w k visited (some n)
      (continuation (planCondition w.nodes n clauses (edgesFrom w.edges n.id)) n rest) := by
  have along {handles : List String} (branch : handles ∈ flowBranches) {a : Node}
      (goesOn : Compilation.onward w.nodes (edgeOn (edgesFrom w.edges n.id) handles) = some a) :
      Written w k visited (some n) (rest a.id) := by
    refine onward a.id fun m found => ?_
    obtain rfl : a = m := Option.some.inj ((indexed?_of_onward goesOn).1.symm.trans found)
    rw [LeavesFor, if_pos condition]
    exact ⟨handles, branch, goesOn⟩
  unfold continuation
  split
  · next a b ifNode elseNode =>
    split
    · exact along (by simp [flowBranches]) ifNode
    · exact written_fatal rfl _
  · next a ifNode elseNode => exact along (by simp [flowBranches]) ifNode
  · next b ifNode elseNode => exact along (by simp [flowBranches]) elseNode
  · next ifNode elseNode =>
    refine written_stopped (AtRest.passes (.inr (.inr ⟨condition, ?_⟩))) _ (by simp)
    intro handles branch e on m found
    simp only [flowBranches, List.mem_cons, List.not_mem_nil, or_false] at branch
    rcases branch with rfl | rfl
    · exact onward_eq_none (on ▸ ifNode) found
    · exact onward_eq_none (on ▸ elseNode) found

/-- What is found out at a condition is not fatal. -/
theorem advisory_findings (nodes : List Node) (clauses : List Clause) (edges : List Edge) :
    ∀ f ∈ (planCondition nodes n clauses edges).findings, f.isFatal = false := by
  intro f mem
  simp only [planCondition, List.mem_append, List.mem_ite_nil_right, List.mem_singleton,
    Option.mem_toList, Option.map_eq_some_iff] at mem
  rcases mem with (⟨-, rfl⟩ | ⟨-, rfl⟩) | ⟨cause, -, rfl⟩ <;> rfl

/-- The walk from every node on. -/
theorem written_walk {last current : String}
    (leaves : ∀ m, indexed? w.nodes current = some m → w.LeavesFor n m) :
    Written w k visited (some n) (walk w k visited last current) := by
  induction k generalizing n visited last current with
  | zero => exact written_fatal rfl _
  | succ k ih =>
    unfold walk
    split
    · exact written_fatal rfl _
    · next unseen =>
      split
      · exact written_fatal rfl _
      · next m found =>
        obtain ⟨mem, rfl⟩ := Workflow.mem_of_indexed? found
        have new : m.id ∉ visited := by simpa using unseen
        have onward : ∀ id, (∀ a, indexed? w.nodes id = some a → w.LeavesFor m a) →
            Written w k (m.id :: visited) (some m) (walk w k (m.id :: visited) m.id id) :=
          fun id leaves => ih leaves
        simp only
        cases config : m.config with
        | trigger c | split c | webhook c => exact written_fatal rfl _
        | sendEmail c =>
          have kind : m.kind = .sendEmail := congrArg Config.kind config
          have next := written_follow (by rw [Node.isA, kind]; rfl) onward
          exact next.before rfl mem kind (by decide) rfl new (by simp) (leaves m found)
        | wait c =>
          have kind : m.kind = .wait := congrArg Config.kind config
          have next := written_follow (by rw [Node.isA, kind]; rfl) onward
          exact next.before rfl mem kind (by decide) rfl new (by simp) (leaves m found)
        | condition c =>
          have kind : m.kind = .condition := congrArg Config.kind config
          have next := written_continuation (by rw [Node.isA, kind]; rfl) c.canonical onward
          exact next.before rfl mem kind (by decide) rfl new (advisory_findings _ _ _) (leaves m found)
        | exit c =>
          have kind : m.kind = .exit := congrArg Config.kind config
          have rests : w.AtRest m := .inl (by rw [Node.isA, kind]; rfl)
          have unwritten : ([] : Flow).map (·.id) = if stepKinds.contains m.kind then [m.id] else [] := by
            rw [kind]
            rfl
          exact written_stopped (rests.passes.cons (leaves m found) unwritten) _ (by simp)

end Compilation

/-- Every flow ends in its only stop, has a step for a node of its kind before it, for no node two and no more
than may be passed, and at most one fatal finding, which is the last; where there is none, the walk from the
trigger came to rest. -/
theorem Workflow.written_compile (w : Workflow) (budget : Nat) :
    Compilation.Written w budget [] w.trigger? (w.compile budget) := by
  unfold compile
  split
  · exact Compilation.written_fatal rfl _
  · next t trigger =>
    have isTrigger : t.kind = .trigger := by simpa [Node.isA] using List.find?_some trigger
    have other : t.isA .condition = false := by rw [Node.isA, isTrigger]; rfl
    rw [trigger]
    exact Compilation.written_follow other fun id leaves => Compilation.written_walk leaves

/-- A workflow has a flow exactly if the conditions that it has steps for can be read.  Every flow ends in its only
stop, has a step for a node of its kind before it, for no node two and no more than may be passed, and at most one
fatal finding, which is the last; where there is none, the walk from the trigger came to rest. -/
theorem Workflow.written_tryCompile (w : Workflow) (budget : Nat) :
    ((∃ c, w.tryCompile budget = .ok c) ↔ w.ReadsSteps (w.compile budget).steps)
      ∧ ∀ c, w.tryCompile budget = .ok c → Compilation.Written w budget [] w.trigger? c := by
  refine ⟨exists_tryCompile_iff, fun c compiled => ?_⟩
  obtain rfl := (tryCompile_eq_ok_iff.1 compiled).2
  exact w.written_compile budget

/-- The flow of the follow-up, which may pass three nodes after the trigger, has as many steps and a stop. -/
theorem Workflow.written_tryCompile_followUp :
    ∃ c, followUp.tryCompile 3 = .ok c ∧ Compilation.Written followUp 3 [] followUp.trigger? c
      ∧ c.steps.map (·.id) = ["m", "c", "p", "p_stop"] := by
  obtain ⟨compiles, shape⟩ := written_tryCompile followUp 3
  have legible : followUp.Legible := by decide +kernel
  obtain ⟨c, compiled⟩ := compiles.2 (legible.readsSteps _)
  obtain rfl := (tryCompile_eq_ok_iff.1 compiled).2
  exact ⟨_, compiled, shape _ compiled, by decide +kernel⟩

/-- Before a condition that cannot be read, a flow is not written as soon as it may have a step for it. -/
theorem Workflow.not_written_overlong :
    overlong.trigger? = some { id := "t", config := .trigger {} } ∧ ¬ ∃ c, overlong.tryCompile 1 = .ok c :=
  ⟨rfl, not_tryCompile_overlong 0⟩

end Journey
