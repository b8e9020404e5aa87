import Journey.Proofs.Runner.Preserved
import Journey.Proofs.Runner.Unguarded
import Journey.Proofs.Workflow.Legible

/-!
# Journey.Proofs.Runner.Truncated -- the guard against long walks only cuts them short

The walk that writes a flow and the dry run both stop with a report once they have passed as many nodes as
they may.  A walk that may pass more does the same for as long as the shorter one goes, since neither looks at
what it may still pass before it has used it up.  So the guard has no effect but that the rest is missing.

A run is cut from a longer one if it is the same and has met no guard, or if it consists of the first part of
the longer one and the report (`Simulation.Cut`, `Compiled.Cut`).  The first case takes in the walk that comes
to its end with the last node it may pass.  What is put in front of both keeps the relation (`Cut.passing`,
`Cut.before`), so it holds of walks from any node on, by induction on what the shorter one may pass
(`cut_run`, `cut_walk`).

The conditions on the way of the shorter walk are the first of those on the way of the longer one.  So what cannot be
read for the one cannot be read for the other, and nothing is lost by the guard; but the longer walk may come to a
condition that cannot be read, where there is nothing for the shorter one to be a part of.  Main statement:
`shortens_of_le`.
-/

namespace Journey

set_option autoImplicit false

/-! ## Dry runs -/

namespace Simulation

/-- A run is all of another one, or the guard stopped it after a number of nodes. -/
inductive Cut (budget : Nat) (s t : Simulation) : Prop where
  | whole (free : .guard ∉ s.events) (same : s = t)
  | short (notes : List Event) (free : .guard ∉ notes) (events : s.events = notes ++ [.guard])
      (passed : s.nodes.length = budget) (nodes : s.nodes <+: t.nodes) (edges : s.edges <+: t.edges)
      (noted : notes <+: t.events)

variable {w : Workflow} {contact : Contact} {rolls : Nat → Float} {k m : Nat} {p : Progress} {n : Node}
  {e : Event} {s t : Simulation}

theorem missingNode_ne_guard (node : String) (edge : Option String) : Event.missingNode node edge ≠ .guard := by
  intro same
  have chars := congrArg (fun e => e.id.toList) same
  simp [Event.missingNode, Event.guard, Event.warning] at chars

theorem ne_guard_of_node (there : e.node.isSome = true) : e ≠ .guard :=
  fun same => not_isGuard there (.inr (.inl same))

/-- A node and an edge before both runs. -/
theorem Cut.passing (h : Cut k s t) (there : e.node.isSome = true) (edge : Option String) :
    Cut (k + 1) (passing n e edge s) (passing n e edge t) := by
  have other : .guard ≠ e := (ne_guard_of_node there).symm
  cases h with
  | whole free same =>
    refine .whole (fun mem => ?_) (by rw [same])
    exact (List.mem_cons.1 mem).elim other free
  | short notes free events passed nodes edges noted =>
    refine .short (e :: notes) ?_ ?_ ?_ ?_ ?_ ?_
    · exact fun mem => (List.mem_cons.1 mem).elim other free
    · rw [Simulation.passing, events, List.cons_append]
    · rw [Simulation.passing, List.length_cons, passed]
    · exact List.cons_prefix_cons.2 ⟨rfl, nodes⟩
    · exact (List.prefix_append_right_inj _).2 edges
    · exact List.cons_prefix_cons.2 ⟨rfl, noted⟩

/-- From every node on, the run that may pass fewer nodes is cut from the one that may pass more. -/
theorem cut_run (m : Nat) (p : Progress) (current : String) :
    Cut k (run w contact rolls k p current) (run w contact rolls (k + m) p current) := by
  induction k generalizing p current with
  | zero =>
    exact .short [] List.not_mem_nil rfl rfl List.nil_prefix List.nil_prefix List.nil_prefix
  | succ k ih =>
    rw [Nat.add_right_comm, run, run]
    cases Workflow.indexed? w.nodes current with
    | none => exact .whole (by simpa using (missingNode_ne_guard current p.edge).symm) rfl
    | some n =>
      dsimp only
      split
      · exact .whole (by simpa [passing] using (ne_guard_of_node rfl).symm) rfl
      · split
        · refine .whole (fun mem => ?_) rfl
          simp only [passing, List.mem_cons, List.not_mem_nil, or_false] at mem
          exact mem.elim (ne_guard_of_node rfl).symm (ne_guard_of_node rfl).symm
        · exact (ih _ _).passing rfl _

/-- A run with a guard against another run: it is the same if the guard did not stop it, and the first part of
it if the guard did, after as many nodes as it may pass. -/
structure Truncates (budget : Nat) (s t : Simulation) : Prop where
  unguarded : s.events.getLast? ≠ some .guard → s = t
  guarded : s.events.getLast? = some .guard →
    s.nodes.length = budget ∧ s.nodes <+: t.nodes ∧ s.edges <+: t.edges
      ∧ (s.events.filter fun e => e ≠ .guard) <+: t.events

theorem Cut.truncates (h : Cut k s t) : Truncates k s t := by
  cases h with
  | whole free same => exact ⟨fun _ => same, fun last => absurd (List.mem_of_getLast? last) free⟩
  | short notes free events passed nodes edges noted =>
    have last : s.events.getLast? = some .guard := by rw [events, List.getLast?_concat]
    have others : (s.events.filter fun e => e ≠ .guard) = notes := by
      have kept : (notes.filter fun e => e ≠ .guard) = notes :=
        List.filter_eq_self.2 fun e mem => by simpa using fun same : e = .guard => free (same ▸ mem)
      rw [events, List.filter_append, kept]
      simp
    exact ⟨fun unguarded => absurd last unguarded, fun _ => ⟨passed, nodes, edges, others ▸ noted⟩⟩

end Simulation

/-! ## Flows -/

namespace Finding

/-- Whether a finding is that of the guard. -/
def isGuard (f : Finding) : Bool := f.code == "step_guard"

end Finding

namespace Compiled

/-- What is written is all that is written another time, or the guard stopped the walk after a number of
steps, and a stop closed what was written. -/
inductive Cut (budget : Nat) (c d : Compiled) : Prop where
  | whole (free : ∀ f ∈ c.findings, f.isGuard = false) (same : c = d)
  | short (steps : Flow) (stop node : String) (findings : List Finding)
      (acts : ∀ s ∈ steps, s.action.isStop = false) (free : ∀ f ∈ findings, f.isGuard = false)
      (passed : steps.length = budget) (written : c = ⟨steps ++ [.stop stop], findings ++ [.stepGuard node]⟩)
      (further : steps <+: d.steps) (found : findings <+: d.findings)

variable {k : Nat} {c d : Compiled}

/-- A walk that comes to rest. -/
theorem cut_stopped (id : String) : Cut k (stopped id) (stopped id) :=
  .whole (fun _ mem => absurd mem List.not_mem_nil) rfl

/-- A walk that ends with another finding than the guard's. -/
theorem cut_ended (id : String) {f : Finding} (other : f.isGuard = false) :
    Cut k (stopped id [f]) (stopped id [f]) := .whole (List.forall_mem_singleton.2 other) rfl

/-- A step and its findings before both. -/
theorem Cut.before (h : Cut k c d) {s : Step} (acts : s.action.isStop = false) {findings : List Finding}
    (free : ∀ f ∈ findings, f.isGuard = false) : Cut (k + 1) (before s findings c) (before s findings d) := by
  cases h with
  | whole rest same =>
    refine .whole (fun f mem => ?_) (by rw [same])
    exact (List.mem_append.1 mem).elim (free f) (rest f)
  | short steps stop node others actsToo freeToo passed written further found =>
    refine .short (s :: steps) stop node (findings ++ others) ?_ ?_ ?_ ?_ ?_ ?_
    · exact List.forall_mem_cons.2 ⟨acts, actsToo⟩
    · exact fun f mem => (List.mem_append.1 mem).elim (free f) (freeToo f)
    · rw [List.length_cons, passed]
    · rw [written, Compiled.before, List.cons_append, List.append_assoc]
    · exact List.cons_prefix_cons.2 ⟨rfl, further⟩
    · exact (List.prefix_append_right_inj _).2 found

end Compiled

namespace Compilation

variable {w : Workflow} {n : Node} {k : Nat} {rest further : String → Compiled}

theorem cut_follow (onward : ∀ id, (rest id).Cut k (further id)) :
    (follow w n rest).Cut k (follow w n further) := by
  unfold follow
  split
  · exact onward _
  · exact Compiled.cut_ended _ rfl

theorem cut_continuation (plan : ConditionPlan) (onward : ∀ id, (rest id).Cut k (further id)) :
    (continuation plan n rest).Cut k (continuation plan n further) := by
  unfold continuation
  split
  · split
    · exact onward _
    · exact Compiled.cut_ended _ rfl
  · exact onward _
  · exact onward _
  · exact Compiled.cut_stopped _

theorem isGuard_findings (nodes : List Node) (clauses : List Clause) (edges : List Edge) :
    ∀ f ∈ (planCondition nodes n clauses edges).findings, f.isGuard = false := by
  intro f mem
  by_contra guard
  have code : f.code = "step_guard" := by simpa [Finding.isGuard] using guard
  exact unguarded_findings nodes clauses edges f mem (by simp [code, Finding.guardCodes])

/-- From every node on, the walk that may pass fewer nodes is cut from the one that may pass more. -/
theorem cut_walk (m : Nat) (visited : List String) (last current : String) :
    (walk w k visited last current).Cut k (walk w (k + m) visited last current) := by
  induction k generalizing visited last current with
  | zero =>
    exact .short [] _ _ [] (by simp) (by simp) rfl rfl List.nil_prefix List.nil_prefix
  | succ k ih =>
    rw [Nat.add_right_comm, walk, walk]
    split
    · exact Compiled.cut_ended _ rfl
    · split
      · exact Compiled.cut_ended _ rfl
      · next n found =>
        have onward (id : String) := ih (current :: visited) n.id id
        dsimp only
        cases n.config with
        | trigger c => exact Compiled.cut_ended _ rfl
        | sendEmail c => exact (cut_follow onward).before rfl (by simp)
        | wait c => exact (cut_follow onward).before rfl (by simp)
        | condition c => exact (cut_continuation _ onward).before rfl (isGuard_findings _ _ _)
        | split c => exact Compiled.cut_ended _ rfl
        | webhook c => exact Compiled.cut_ended _ rfl
        | exit c => exact Compiled.cut_stopped _

end Compilation

namespace Compiled

/-- What is written with a guard against what is written another time: it is the same if the guard reports
nothing, and otherwise the steps before the stop, as many as nodes may be passed, and what else is found are
the first part of it. -/
structure Truncates (budget : Nat) (c d : Compiled) : Prop where
  unguarded : (∀ f ∈ c.findings, f.code ≠ "step_guard") → c = d
  guarded : (∃ f ∈ c.findings, f.code = "step_guard") →
    c.steps.withoutStops.length = budget ∧ c.steps.withoutStops <+: d.steps.withoutStops
      ∧ (c.findings.filter fun f => f.code ≠ "step_guard") <+: d.findings

theorem Cut.truncates {k : Nat} {c d : Compiled} (h : Cut k c d) : Truncates k c d := by
  cases h with
  | whole free same =>
    refine ⟨fun _ => same, fun ⟨f, mem, guard⟩ => ?_⟩
    have other := free f mem
    simp [Finding.isGuard, guard] at other
  | short steps stop node findings acts free passed written further found =>
    subst written
    have own : Flow.withoutStops (steps ++ [.stop stop]) = steps := by
      have kept : steps.withoutStops = steps := List.filter_eq_self.2 fun s mem => by simp [acts s mem]
      rw [Flow.withoutStops, List.filter_append, ← Flow.withoutStops, kept]
      exact List.append_nil _
    have others : ((findings ++ [Finding.stepGuard node]).filter fun f => f.code ≠ "step_guard") = findings := by
      have kept : (findings.filter fun f => f.code ≠ "step_guard") = findings :=
        List.filter_eq_self.2 fun f mem => by simpa [Finding.isGuard] using free f mem
      rw [List.filter_append, kept]
      simp [Finding.code]
    refine ⟨fun unguarded => ?_, fun _ => ?_⟩
    · exact absurd rfl (unguarded (.stepGuard node) (by simp))
    · rw [own, others]
      refine ⟨passed, ?_, found⟩
      have acting := further.filter fun s => !s.action.isStop
      rwa [List.filter_eq_self.2 fun s mem => by simp [acts s mem]] at acting

end Compiled

namespace Workflow

/-- With a dry run and a walk that may pass more nodes, nothing changes unless the guard stopped the ones that
may pass fewer, and then these are the first part of the others. -/
theorem truncates_of_le (w : Workflow) (contact : Contact) (rolls : Nat → Float) {k l : Nat} (more : k ≤ l) :
    Simulation.Truncates k (w.simulate contact rolls k) (w.simulate contact rolls l)
      ∧ Compiled.Truncates k (w.compile k) (w.compile l) := by
  obtain ⟨m, rfl⟩ := Nat.exists_eq_add_of_le more
  rw [simulate, simulate, compile, compile]
  cases w.trigger? with
  | none =>
    have free : Event.guard ∉ [Event.noTrigger] := by decide
    refine ⟨Simulation.Cut.truncates (.whole free rfl), Compiled.Cut.truncates ?_⟩
    exact Compiled.cut_ended _ rfl
  | some t =>
    refine ⟨(Simulation.cut_run m {} t.id).truncates, Compiled.Cut.truncates ?_⟩
    exact Compilation.cut_follow fun id => Compilation.cut_walk m [] t.id id

/-- What comes of a walk that may pass fewer nodes against what comes of one that may pass more: a failure is the
same, a walk that was not stopped is the same, and a walk that was is part of the other, if that does not fail. -/
structure Shortens {α : Type} (stopped : α → Prop) (part : α → α → Prop) (x y : Except Overlong α) :
    Prop where
  fails : ∀ o, x = .error o → y = .error o
  whole : ∀ a, x = .ok a → ¬ stopped a → y = .ok a
  part : ∀ a b, x = .ok a → y = .ok b → part a b

/-- Where the conversions of one walk are the first of those of another. -/
theorem Shortens.after_of_leading {α : Type} {stopped : α → Prop} {part : α → α → Prop}
    {cs ds : List Conversion} {a b : α} (first : cs <+: ds) (whole : ¬ stopped a → ds = cs ∧ b = a)
    (parts : part a b) :
    Shortens stopped part (Conversion.after cs a) (Conversion.after ds b) := by
  refine ⟨fun o failed => ?_, fun a' done free => ?_, fun a' b' done further => ?_⟩
  · obtain ⟨rest, rfl⟩ := first
    have failure : Conversion.firstFailure? cs = some o := by
      unfold Conversion.after at failed
      split at failed
      · cases failed
      · next found => rw [found, Except.error.inj failed]
    rw [Conversion.after, Conversion.firstFailure?, List.findSome?_append, ← Conversion.firstFailure?, failure]
    rfl
  · obtain ⟨-, rfl⟩ := Conversion.after_eq_ok_iff.1 done
    obtain ⟨rfl, rfl⟩ := whole free
    exact done
  · rwa [← (Conversion.after_eq_ok_iff.1 done).2, ← (Conversion.after_eq_ok_iff.1 further).2]

theorem visitConversions_prefix (w : Workflow) (contact : Contact) {ids more : List String} (first : ids <+: more) :
    w.visitConversions contact ids <+: w.visitConversions contact more := by
  obtain ⟨rest, rfl⟩ := first
  rw [visitConversions, visitConversions, List.flatMap_append]
  exact List.prefix_append _ _

/-- What is read for a flow is read for its steps that do something. -/
theorem flowConversions_withoutStops (w : Workflow) (f : Flow) :
    w.flowConversions f.withoutStops = w.flowConversions f := by
  have conditions : (f.withoutStops.filter fun s => s.action.isCondition)
      = f.filter fun s => s.action.isCondition := by
    rw [Flow.withoutStops, List.filter_filter]
    refine List.filter_congr fun s _ => ?_
    cases s.action <;> rfl
  rw [flowConversions, conditions, ← flowConversions]

theorem flowConversions_prefix (w : Workflow) {f g : Flow} (first : f.withoutStops <+: g.withoutStops) :
    w.flowConversions f <+: w.flowConversions g := by
  rw [← flowConversions_withoutStops w f, ← flowConversions_withoutStops w g]
  obtain ⟨rest, same⟩ := first
  rw [← same, flowConversions, flowConversions, List.filter_append, List.flatMap_append]
  exact List.prefix_append _ _

/-- With a dry run and a walk that may pass more nodes, nothing changes unless the guard stopped the ones that may
pass fewer, and then these are the first part of the others, which there are exactly if all conditions on the way
can be read. -/
theorem shortens_of_le (w : Workflow) (contact : Contact) (rolls : Nat → Float) {k l : Nat} (more : k ≤ l) :
    (Shortens (fun s => s.events.getLast? = some .guard) (Simulation.Truncates k)
        (w.trySimulate contact rolls k) (w.trySimulate contact rolls l)
      ∧ ((∃ t, w.trySimulate contact rolls l = .ok t)
          ↔ w.ReadsVisits contact (w.simulate contact rolls l).nodes))
      ∧ Shortens (fun c => ∃ f ∈ c.findings, f.code = "step_guard") (Compiled.Truncates k)
          (w.tryCompile k) (w.tryCompile l)
      ∧ ((∃ d, w.tryCompile l = .ok d) ↔ w.ReadsSteps (w.compile l).steps) := by
  obtain ⟨run, flow⟩ := truncates_of_le w contact rolls more
  refine ⟨⟨?_, exists_trySimulate_iff⟩, ?_, exists_tryCompile_iff⟩
  · refine .after_of_leading ?_ (fun free => ?_) run
    · by_cases guard : (w.simulate contact rolls k).events.getLast? = some .guard
      · exact visitConversions_prefix w contact (run.guarded guard).2.1
      · exact run.unguarded guard ▸ List.prefix_rfl
    · rw [← run.unguarded free]
      exact ⟨rfl, rfl⟩
  · have same (free : ¬ ∃ f ∈ (w.compile k).findings, f.code = "step_guard") : w.compile k = w.compile l :=
      flow.unguarded fun f mem guard => free ⟨f, mem, guard⟩
    refine .after_of_leading ?_ (fun free => ?_) flow
    · by_cases guard : ∃ f ∈ (w.compile k).findings, f.code = "step_guard"
      · exact flowConversions_prefix w (flow.guarded guard).2.1
      · exact same guard ▸ List.prefix_rfl
    · rw [← same free]
      exact ⟨rfl, rfl⟩

/-- With four nodes to pass, the guard stops the dry run of the follow-up before the exit, but not the walk that
writes its flow, which does not count the trigger. -/
theorem shortens_of_le_followUp :
    4 ≤ 9
      ∧ (∃ s t, followUp.trySimulate { opened := true } (fun _ => 0.0) 4 = .ok s
          ∧ followUp.trySimulate { opened := true } (fun _ => 0.0) 9 = .ok t
          ∧ s.events.getLast? = some .guard ∧ s.nodes = ["t", "m", "c", "p"] ∧ s.nodes <+: t.nodes)
      ∧ ∃ c, followUp.tryCompile 4 = .ok c ∧ followUp.tryCompile 9 = .ok c
          ∧ c.findings = [.ruleFallback (.rule .emailOpened) "c"] := by
  obtain ⟨⟨run, runs⟩, flow, -⟩ :=
    shortens_of_le followUp { opened := true } (fun _ => 0.0) (k := 4) (l := 9) (by decide)
  have legible : followUp.Legible := by decide +kernel
  obtain ⟨t, further⟩ := runs.2 (by decide +kernel)
  have done : followUp.trySimulate { opened := true } (fun _ => 0.0) 4 = .ok _ :=
    trySimulate_eq_ok_iff.2 ⟨by decide +kernel, rfl⟩
  have guard : (followUp.simulate { opened := true } (fun _ => 0.0) 4).events.getLast? = some .guard := by
    decide +kernel
  have written : followUp.tryCompile 4 = .ok _ := legible.tryCompile 4
  refine ⟨by decide, ⟨_, t, done, further, guard, by decide +kernel, ?_⟩, _, written, ?_, by decide +kernel⟩
  · exact ((run.part _ _ done further).guarded guard).2.1
  · exact flow.whole _ written (by decide +kernel)

/-- A run that may pass one node is stopped before a condition that cannot be read, and is part of nothing: where it
may pass one node more, there is no run. -/
theorem not_shortens_overlong :
    (∃ s, overlong.trySimulate {} (fun _ => 0.5) 1 = .ok s ∧ s.events.getLast? = some .guard ∧ s.nodes = ["t"])
      ∧ ¬ ∃ t, overlong.trySimulate {} (fun _ => 0.5) 2 = .ok t := by
  have read : overlong.ReadsVisits {} (overlong.simulate {} (fun _ => 0.5) 1).nodes := by decide +kernel
  exact ⟨⟨_, trySimulate_eq_ok_iff.2 ⟨read, rfl⟩, by decide +kernel, by decide +kernel⟩,
    not_trySimulate_overlong _ _ 0⟩

end Workflow

end Journey
