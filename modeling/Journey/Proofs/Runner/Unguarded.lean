import Journey.Proofs.Graph.Agreement
import Journey.Proofs.Runner.Execution
import Journey.Proofs.Workflow.Legible

/-!
# Journey.Proofs.Runner.Unguarded -- no guard stops a walk along a valid workflow

The walk that writes a flow and the dry run both guard against damaged workflows: against a missing trigger,
an edge to no node, a node that is seen again, and a walk without end.  On a valid workflow none of these
guards is used.

Both walks stand on a node to which every node they have seen leads by at least one edge
(`Workflow.Forward`).  Without loops this node is a new one, so the nodes seen are distinct, and a walk that
may pass as many nodes as there are has not used up its allowance.  Every edge from there leads forward again
(`Forward.along`), whichever edge the contact or the dice choose.

A workflow that was found valid has had the conditions read from which edges lead on, so what cannot be read can
only stand at an end (`legible_of_valid`).  Main statement: `unguarded_of_valid`.
-/

namespace Journey

set_option autoImplicit false

/-! ## What the guards report -/

/-- The codes of the findings with which the walk guards against damaged workflows. -/
def Finding.guardCodes : List String := ["missing_trigger", "loop", "missing_node", "step_guard"]

/-- The codes of the fatal findings about what a flow cannot say. -/
def Finding.lossCodes : List String := ["unsupported_node", "divergent_branches"]

/-- A fatal finding is a guard's, or says what is lost. -/
theorem Finding.code_of_isFatal {f : Finding} (fatal : f.isFatal = true) :
    f.code ∈ guardCodes ∨ f.code ∈ lossCodes := by
  cases f <;> simp_all [isFatal, severity, code, guardCodes, lossCodes]

/-- No guard has reported anything. -/
def Compiled.Unguarded (c : Compiled) : Prop := ∀ f ∈ c.findings, f.code ∉ Finding.guardCodes

namespace Simulation

/-- An event with which a dry run guards against damaged workflows. -/
def IsGuard (e : Event) : Prop :=
  e = .noTrigger ∨ e = .guard ∨ ∃ node edge, e = .missingNode node edge

/-- The run comes to an exit and is complete, or it comes to another node, from which no edge leads on, and
ends with a warning of that. -/
def ComesToEnd (w : Workflow) (s : Simulation) : Prop :=
  ∃ n ∈ w.nodes, s.nodes.getLast? = some n.id
    ∧ ((s.completed = true ∧ n.isA .exit = true)
      ∨ (s.completed = false ∧ n.isA .exit = false ∧ Workflow.edgesFrom w.edges n.id = []
        ∧ s.events.getLast? = some (.deadEnd n)))

/-- From a point on, no node is visited twice or was seen before, no guard stops the run, and it ends
properly. -/
structure Unguarded (w : Workflow) (seen : List String) (s : Simulation) : Prop where
  distinct : s.nodes.Nodup
  new : ∀ id ∈ s.nodes, id ∉ seen
  events : ∀ e ∈ s.events, ¬ IsGuard e
  ends : s.ComesToEnd w

/-- What is noted about a node is no guard. -/
theorem not_isGuard {e : Event} (there : e.node.isSome = true) : ¬ IsGuard e := by
  rintro (rfl | rfl | ⟨node, edge, rfl⟩) <;> cases there

end Simulation

/-! ## A walk that leads forward -/

namespace Workflow

/-- A walk that has seen some nodes, of which each leads by at least one edge to where it stands. -/
structure Forward (w : Workflow) (seen : List String) (k : Nat) (current : String) : Prop
    extends w.Underway seen k where
  behind : ∀ id ∈ seen, ∃ e ∈ w.edges, e.source = id ∧ Paths.Leads w.edges e.target current
  node : current ∈ w.nodeIds

namespace Forward

variable {w : Workflow} {seen : List String} {k : Nat} {current : String}

/-- The node on which the walk stands is a new one. -/
theorem new (h : w.Forward seen k current) (acyclic : Paths.Acyclic w.edges) : current ∉ seen := by
  intro mem
  obtain ⟨e, memE, rfl, path⟩ := h.behind current mem
  exact acyclic e memE path

/-- So the walk has not used up its allowance. -/
theorem not_spent (h : w.Forward seen 0 current) (acyclic : Paths.Acyclic w.edges) : False := by
  obtain ⟨j, more, -⟩ := h.toUnderway.enter (h.new acyclic) h.node
  cases more

/-- Every edge from there leads forward again. -/
theorem along (h : w.Forward seen (k + 1) current) (sound : Sound (settings? w.nodes) w.edges) {e : Edge}
    (leaves : e ∈ edgesFrom w.edges current) : w.Forward (current :: seen) k e.target := by
  obtain ⟨j, more, under⟩ := h.toUnderway.enter (h.new sound.acyclic) h.node
  obtain rfl : k = j := Nat.succ.inj more
  obtain ⟨mem, source⟩ : e ∈ w.edges ∧ e.source = current := by simpa [edgesFrom] using leaves
  refine ⟨under, fun id behind => ?_, isSome_settings?.1 (sound.fits e mem).target_isSome⟩
  rcases List.mem_cons.1 behind with rfl | behind
  · exact ⟨e, mem, source, .here _⟩
  · obtain ⟨f, memF, start, path⟩ := h.behind id behind
    exact ⟨f, memF, start, path.trans (source ▸ .step mem (.here _))⟩

end Forward

end Workflow

/-! ## The walk that writes a flow -/

namespace Compiled

theorem unguarded_stopped (id : String) {findings : List Finding}
    (fine : ∀ f ∈ findings, f.code ∉ Finding.guardCodes) : (stopped id findings).Unguarded := fine

theorem Unguarded.before {c : Compiled} (h : c.Unguarded) (s : Step) {findings : List Finding}
    (fine : ∀ f ∈ findings, f.code ∉ Finding.guardCodes) : (before s findings c).Unguarded := by
  intro f mem
  rcases List.mem_append.1 mem with own | rest
  · exact fine f own
  · exact h f rest

end Compiled

namespace Compilation

variable {w : Workflow} {n : Node} {rest : String → Compiled}

theorem unguarded_follow
    (onward : ∀ e ∈ Workflow.edgesFrom w.edges n.id, (rest e.target).Unguarded) :
    (follow w n rest).Unguarded := by
  unfold follow
  split
  · next e out => exact onward e (List.mem_of_mem_head? out)
  · exact Compiled.unguarded_stopped _ (by simp [Finding.code, Finding.guardCodes])

theorem mem_of_edgeOn {edges : List Edge} {handles : List String} {e : Edge}
    (h : edgeOn edges handles = some e) : e ∈ edges := by
  obtain ⟨handle, -, found⟩ := List.exists_of_findSome?_eq_some h
  exact List.mem_of_find?_eq_some found

/-- A branch goes on along one of the edges. -/
theorem target_of_onward {nodes : List Node} {edges : List Edge} {handles : List String} {a : Node}
    (h : onward nodes (edgeOn edges handles) = some a) : ∃ e ∈ edges, e.target = a.id := by
  cases found : edgeOn edges handles with
  | none =>
    rw [found] at h
    cases h
  | some e =>
    rw [found] at h
    obtain ⟨there, -⟩ := onward_eq_some_iff.1 h
    exact ⟨e, mem_of_edgeOn found, (Workflow.mem_of_indexed? there).2.symm⟩

theorem unguarded_findings (nodes : List Node) (clauses : List Clause) (edges : List Edge) :
    ∀ f ∈ (planCondition nodes n clauses edges).findings, f.code ∉ Finding.guardCodes := by
  intro f mem
  simp only [planCondition, List.mem_append, List.mem_ite_nil_right, List.mem_singleton,
    Option.mem_toList, Option.map_eq_some_iff] at mem
  rcases mem with (⟨-, rfl⟩ | ⟨-, rfl⟩) | ⟨cause, -, rfl⟩ <;> simp [Finding.code, Finding.guardCodes]

theorem unguarded_continuation (nodes : List Node) (clauses : List Clause) {edges : List Edge}
    (onward : ∀ e ∈ edges, (rest e.target).Unguarded) :
    (continuation (planCondition nodes n clauses edges) n rest).Unguarded := by
  have onto (a : Node) (handles : List String)
      (branch : Compilation.onward nodes (edgeOn edges handles) = some a) : (rest a.id).Unguarded := by
    obtain ⟨e, mem, same⟩ := target_of_onward branch
    exact same ▸ onward e mem
  unfold continuation
  split
  · next a b ifNode elseNode =>
    split
    · exact onto a _ ifNode
    · exact Compiled.unguarded_stopped _ (by simp [Finding.code, Finding.guardCodes])
  · next a ifNode elseNode => exact onto a _ ifNode
  · next b ifNode elseNode => exact onto b _ elseNode
  · exact Compiled.unguarded_stopped _ (by simp)

/-- Where the walk leads forward and has come along an edge, no guard stops it. -/
theorem unguarded_walk (sound : Workflow.Sound (Workflow.settings? w.nodes) w.edges) {start : String}
    {k : Nat} {visited : List String} {last current : String}
    (forward : w.Forward (visited ++ [start]) k current)
    (entered : ∃ e ∈ w.edges, e.target = current) :
    (walk w k visited last current).Unguarded := by
  induction k generalizing visited last current with
  | zero => exact (forward.not_spent sound.acyclic).elim
  | succ k ih =>
    have new : visited.contains current = false := by
      have := forward.new sound.acyclic
      simp_all
    obtain ⟨n, found⟩ := Option.isSome_iff_exists.1 (Workflow.isSome_indexed?.2 forward.node)
    have same := (Workflow.mem_of_indexed? found).2
    have onward : ∀ e ∈ Workflow.edgesFrom w.edges n.id,
        (walk w k (current :: visited) n.id e.target).Unguarded := by
      intro e leaves
      have mem : e ∈ w.edges := (List.mem_filter.1 leaves).1
      exact ih (forward.along sound (same ▸ leaves)) ⟨e, mem, rfl⟩
    unfold walk
    simp only [new, found, Bool.false_eq_true, if_false]
    cases config : n.config with
    | trigger c =>
      -- no edge enters a trigger
      obtain ⟨e, mem, target⟩ := entered
      obtain ⟨_, t, -, atTarget, -, noTrigger, -⟩ := sound.fits e mem
      rw [target, Workflow.settings?_of_indexed? found, config, Option.some.injEq] at atTarget
      exact absurd (congrArg Config.kind atTarget.symm) noTrigger
    | sendEmail c => exact (unguarded_follow onward).before _ (by simp)
    | wait c => exact (unguarded_follow onward).before _ (by simp)
    | condition c =>
      exact (unguarded_continuation _ _ onward).before _ (unguarded_findings _ _ _)
    | split c => exact Compiled.unguarded_stopped _ (by simp [Finding.code, Finding.guardCodes])
    | webhook c => exact Compiled.unguarded_stopped _ (by simp [Finding.code, Finding.guardCodes])
    | exit c => exact Compiled.unguarded_stopped _ (by simp)

end Compilation

/-! ## The dry run -/

namespace Simulation

variable {w : Workflow} {contact : Contact} {rolls : Nat → Float}

theorem nextEdge_eq_none {edges : List Edge} {handle : Option String}
    (h : nextEdge edges handle = none) : edges = [] := by
  unfold nextEdge edgeOn at h
  repeat' split at h
  all_goals simp_all

theorem mem_of_nextEdge {edges : List Edge} {handle : Option String} {e : Edge}
    (h : nextEdge edges handle = some e) : e ∈ edges := by
  unfold nextEdge edgeOn at h
  split at h
  · split at h
    · next found =>
      cases h
      exact List.mem_of_find?_eq_some found
    · exact List.mem_of_mem_head? h
  · exact List.mem_of_mem_head? h

/-- A node on the way does not change how a run ends. -/
theorem Unguarded.passing {n : Node} {seen : List String} {rest : Simulation}
    (h : rest.Unguarded w (n.id :: seen)) (new : n.id ∉ seen) (step : Nat) (message : String)
    (edge : Option String) :
    (passing n (.passing n step message) edge rest).Unguarded w seen where
  distinct := List.nodup_cons.2 ⟨fun mem => h.new n.id mem List.mem_cons_self, h.distinct⟩
  new id mem := by
    rcases List.mem_cons.1 mem with rfl | later
    · exact new
    · exact fun before => h.new id later (List.mem_cons_of_mem _ before)
  events e mem := by
    rcases List.mem_cons.1 mem with rfl | later
    · exact not_isGuard rfl
    · exact h.events e later
  ends := by
    obtain ⟨m, memM, last, rest⟩ := h.ends
    refine ⟨m, memM, ?_, rest.imp_right fun ⟨unfinished, inner, out, warned⟩ =>
      ⟨unfinished, inner, out, ?_⟩⟩
    · simp [Simulation.passing, List.getLast?_cons, last]
    · simp [Simulation.passing, List.getLast?_cons, warned]

/-- Where the run leads forward, no guard stops it. -/
theorem unguarded_run (sound : Workflow.Sound (Workflow.settings? w.nodes) w.edges)
    {seen : List String} {k : Nat} {p : Progress} {current : String}
    (forward : w.Forward seen k current) :
    (run w contact rolls k p current).Unguarded w seen := by
  induction k generalizing seen p current with
  | zero => exact (forward.not_spent sound.acyclic).elim
  | succ k ih =>
    obtain ⟨n, found⟩ := Option.isSome_iff_exists.1 (Workflow.isSome_indexed?.2 forward.node)
    obtain ⟨mem, rfl⟩ := Workflow.mem_of_indexed? found
    have new := forward.new sound.acyclic
    rw [run, found]
    simp only
    split
    · next exit =>
      exact
        { distinct := List.nodup_singleton _
          new := by simpa [passing] using new
          events := by simpa [passing] using not_isGuard rfl
          ends := ⟨n, mem, rfl, .inl ⟨rfl, exit⟩⟩ }
    · next inner =>
      split
      · next stuck =>
        exact
          { distinct := List.nodup_singleton _
            new := by simpa [passing] using new
            events := by
              intro e mem
              simp only [passing, List.mem_cons, List.not_mem_nil, or_false] at mem
              rcases mem with rfl | rfl <;> exact not_isGuard rfl
            ends := ⟨n, mem, rfl, .inr ⟨rfl, by simpa using inner, nextEdge_eq_none stuck, rfl⟩⟩ }
      · next e next => exact (ih (forward.along sound (mem_of_nextEdge next))).passing new _ _ _

end Simulation

namespace Workflow

/-- Of a workflow that was found valid, everything can be read if the nodes can from which no edge leads on. -/
theorem legible_of_valid {w : Workflow} (valid : w.tryProblems = .ok [])
    (ends : ∀ n ∈ w.nodes, edgesFrom w.edges n.id = [] → n.config.Legible) : w.Legible := by
  obtain ⟨converted, kept⟩ := Conversion.after_eq_ok_iff.1 valid
  obtain ⟨-, distinct, sound⟩ := (problems_eq_nil_iff w).1 kept
  intro n mem
  cases out : edgesFrom w.edges n.id with
  | nil => exact ends n mem out
  | cons e _ =>
    have leaves : e ∈ edgesFrom w.edges n.id := by simp [out]
    obtain ⟨memE, source⟩ : e ∈ w.edges ∧ e.source = n.id := by simpa [edgesFrom] using leaves
    have joined : e ∈ attached w.nodes w.edges := by rwa [attached_eq_self sound.fits]
    have found : indexed? w.nodes e.source = some n := (indexed?_eq_some_iff distinct).2 ⟨mem, source.symm⟩
    exact succeed_indexed_iff.1 (Conversion.succeed_flatMap.1 converted e joined) n found

section Valid

variable {w : Workflow} {budget : Nat} (kept : w.problems = []) (room : w.nodes.length ≤ budget)
include kept

/-- Without a breach of the rules there is a trigger, from which a walk leads forward. -/
theorem exists_forward :
    ∃ t, w.trigger? = some t ∧ Sound (settings? w.nodes) w.edges
      ∧ ∀ k, w.nodes.length ≤ k → w.Forward [] k t.id := by
  obtain ⟨one, -, sound⟩ := (problems_eq_nil_iff w).1 kept
  obtain ⟨t, trigger⟩ : ∃ t, w.trigger? = some t := by
    rw [← Option.isSome_iff_exists, trigger?, List.find?_isSome, ← List.countP_pos_iff]
    omega
  have start : t.id ∈ w.nodeIds := List.mem_map_of_mem (List.mem_of_find?_eq_some trigger)
  exact ⟨t, trigger, sound, fun k room =>
    ⟨⟨List.nodup_nil, by simp, by simpa using room⟩, by simp, start⟩⟩

include room

theorem unguarded_compile : (w.compile budget).Unguarded := by
  obtain ⟨t, trigger, sound, forward⟩ := exists_forward kept
  rw [compile, trigger]
  refine Compilation.unguarded_follow fun e leaves => ?_
  have next : w.Forward [t.id] budget e.target := (forward (budget + 1) (by omega)).along sound leaves
  exact Compilation.unguarded_walk sound next ⟨e, (List.mem_filter.1 leaves).1, rfl⟩

theorem unguarded_simulate (contact : Contact) (rolls : Nat → Float) :
    (w.simulate contact rolls budget).Unguarded w [] := by
  obtain ⟨t, trigger, sound, forward⟩ := exists_forward kept
  rw [simulate, trigger]
  exact Simulation.unguarded_run sound (forward budget room)

end Valid

/-- No guard stops the walk that writes the flow or a dry run, with a number of nodes that they may pass; and there
is a flow, and a dry run, unless there is a condition on the way that cannot be read. -/
structure Unguarded (w : Workflow) (budget : Nat) : Prop where
  compiles : (∃ c, w.tryCompile budget = .ok c) ↔ w.ReadsSteps (w.compile budget).steps
  flow : ∀ c, w.tryCompile budget = .ok c → ∀ f ∈ c.findings,
    f.code ∉ Finding.guardCodes ∧ (f.isFatal = true → f.code ∈ Finding.lossCodes)
  runs : ∀ contact rolls, (∃ s, w.trySimulate contact rolls budget = .ok s)
    ↔ w.ReadsVisits contact (w.simulate contact rolls budget).nodes
  dryRun : ∀ contact rolls s, w.trySimulate contact rolls budget = .ok s → s.Unguarded w []

/-- On a workflow that was found valid, no guard stops a walk that may pass as many nodes as there are: what is fatal
in the flow is what a flow cannot say, and a dry run visits no node twice and ends at an exit, or with a warning at a
node from which no edge leads on.  There is a flow if all can be read from which no edge leads on. -/
theorem unguarded_of_valid (w : Workflow) (valid : w.tryProblems = .ok []) (budget : Nat)
    (room : w.nodes.length ≤ budget) :
    w.Unguarded budget
      ∧ ((∀ n ∈ w.nodes, edgesFrom w.edges n.id = [] → n.config.Legible) →
          ∃ c, w.tryCompile budget = .ok c) := by
  have kept := (Conversion.after_eq_ok_iff.1 valid).2
  refine ⟨⟨exists_tryCompile_iff, ?_, fun _ _ => exists_trySimulate_iff, ?_⟩,
    fun ends => ⟨_, (legible_of_valid valid ends).tryCompile budget⟩⟩
  · intro c compiled f mem
    obtain rfl := (tryCompile_eq_ok_iff.1 compiled).2
    have unguarded := unguarded_compile kept room f mem
    exact ⟨unguarded, fun fatal => (Finding.code_of_isFatal fatal).resolve_left unguarded⟩
  · intro contact rolls s ran
    obtain rfl := (trySimulate_eq_ok_iff.1 ran).2
    exact unguarded_simulate kept room contact rolls

/-- On the follow-up, as many nodes as it has are enough. -/
theorem unguarded_of_valid_followUp :
    followUp.tryProblems = .ok [] ∧ followUp.Unguarded 5 ∧ ∃ c, followUp.tryCompile 5 = .ok c := by
  have valid : followUp.tryProblems = .ok [] :=
    Conversion.after_eq_ok_iff.2 ⟨by decide +kernel, by decide +kernel⟩
  have legible : followUp.Legible := by decide +kernel
  obtain ⟨unguarded, compiles⟩ := unguarded_of_valid followUp valid 5 (by decide)
  exact ⟨valid, unguarded, compiles fun n mem _ => legible n mem⟩

/-- Where a condition from which no edge leads on cannot be read, a workflow may be valid and have neither a flow nor
a dry run. -/
theorem not_unguarded_overlong :
    overlong.tryProblems = .ok [] ∧ overlong.nodes.length ≤ 2 ∧ (¬ ∃ c, overlong.tryCompile 2 = .ok c)
      ∧ ¬ ∃ s, overlong.trySimulate {} (fun _ => 0.5) 2 = .ok s := by
  have valid : overlong.tryProblems = .ok [] :=
    Conversion.after_eq_ok_iff.2 ⟨by decide +kernel, by decide +kernel⟩
  exact ⟨valid, by decide, not_tryCompile_overlong 1, not_trySimulate_overlong _ _ 0⟩

end Workflow

end Journey
