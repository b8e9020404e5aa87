import Journey.Proofs.Runner.Unguarded
import Journey.Proofs.Workflow.Legible

/-!
# Journey.Proofs.Runner.Traced -- a dry run is a path

A dry run leaves behind the nodes it visited, the edges it went along, and what it noted.  The three belong
together on every workflow, however damaged: the edges lead from each visited node to the next one
(`Paths.Along`), and one event was noted for every visited node.  The run may have come to one point more,
which it did not visit, because there is no such node or because the guard did not let it pass; then there is
one edge more.

How the run ended is told by what it noted last (`Simulation.Ending`): nothing more at an exit, and else one
warning.  What holds of the rest of a run from a point on holds from the node before it as well
(`Traced.passing`), so it holds of a whole run, whichever edges the contact and the dice choose
(`traced_run`).  A run is taken exactly if the branches of the conditions on the way can be picked.  Main
statement: `traced_trySimulate`.
-/

namespace Journey

set_option autoImplicit false

namespace Paths

variable {edges : List Edge}

/-- The edges with the identifiers lead one after the other from each of the points to the next one. -/
inductive Along (edges : List Edge) : List String → List String → Prop where
  | last (a : String) : Along edges [a] []
  | step {e : Edge} {points ids : List String} : e ∈ edges → Along edges (e.target :: points) ids →
      Along edges (e.source :: e.target :: points) (e.id :: ids)

/-- Every point is reached from the first one. -/
theorem Along.leads {points ids : List String} (h : Along edges points ids) {a : String}
    (first : points.head? = some a) : ∀ b ∈ points, Leads edges a b := by
  induction h generalizing a with
  | last c =>
    cases first
    exact List.forall_mem_singleton.2 (.here c)
  | step mem _ ih =>
    cases first
    exact List.forall_mem_cons.2 ⟨.here _, fun b later => .step mem (ih rfl b later)⟩

end Paths

/-- A node with the identifier is an exit. -/
def Workflow.IsExit (w : Workflow) (id : String) : Prop := ∃ n ∈ w.nodes, n.id = id ∧ n.isA .exit = true

theorem Workflow.isExit_iff {w : Workflow} (distinct : w.nodeIds.Nodup) {n : Node} (mem : n ∈ w.nodes) :
    w.IsExit n.id ↔ n.isA .exit = true := by
  constructor
  · rintro ⟨m, memM, same, exit⟩
    rwa [← List.inj_on_of_nodup_map distinct memM mem same]
  · exact fun exit => ⟨n, mem, rfl, exit⟩

namespace Simulation

/-- What is noted of a node that is visited. -/
def Notes (id : String) (e : Event) : Prop := e.node = some id ∧ e.level = .info

/-- How a run ended, the point it came to and did not visit, and the events after those of the nodes: at an
exit, at a node from which no edge leads on, before a point that is no node, or before one that the guard
does not let it pass.  The run may have come to its start along an edge. -/
inductive Ending (w : Workflow) (budget : Nat) (came : Option String) (s : Simulation) :
    Option String → List Event → Prop where
  | complete (completed : s.completed = true) : Ending w budget came s none []
  | deadEnd {n : Node} (completed : s.completed = false) (mem : n ∈ w.nodes)
      (last : s.nodes.getLast? = some n.id) (out : Workflow.edgesFrom w.edges n.id = []) :
      Ending w budget came s none [.deadEnd n]
  | missing {a : String} (completed : s.completed = false) (absent : a ∉ w.nodeIds) :
      Ending w budget came s (some a) [.missingNode a (s.edges.getLast?.or came)]
  | guard {a : String} (completed : s.completed = false) (spent : s.nodes.length = budget) :
      Ending w budget came s (some a) [.guard]

/-- What a run leaves behind that starts at a point. -/
structure Traced (w : Workflow) (budget : Nat) (came : Option String) (start : String) (s : Simulation) :
    Prop where
  length : s.nodes.length ≤ budget
  inner : ∀ id ∈ s.nodes.dropLast, ¬ w.IsExit id
  completed : s.completed = true ↔ ∃ id, s.nodes.getLast? = some id ∧ w.IsExit id
  trace : ∃ beyond notes rest, Ending w budget came s beyond rest
    ∧ (s.nodes ++ beyond.toList).head? = some start
    ∧ Paths.Along w.edges (s.nodes ++ beyond.toList) s.edges
    ∧ s.events = notes ++ rest ∧ List.Forall₂ Notes s.nodes notes

variable {w : Workflow} {contact : Contact} {rolls : Nat → Float} {k : Nat} {p : Progress} {n : Node}
  {e : Edge} {event : Event} {rest : Simulation} {came : Option String} {start : String}

/-- A run that is not complete ends with one warning. -/
theorem Ending.warned {s : Simulation} {beyond : Option String} {tail : List Event}
    (h : Ending w k came s beyond tail) :
    if s.completed then tail = [] else ∃ e, tail = [e] ∧ e.level = .warning := by
  cases h with
  | complete completed => rw [if_pos completed]
  | deadEnd completed => simp [completed, Event.deadEnd, Event.warning]
  | missing completed => simp [completed, Event.missingNode, Event.warning]
  | guard completed => simp [completed, Event.guard, Event.warning]

/-- A node and an edge before the rest of a run do not change how it ends. -/
theorem Ending.passing {beyond : Option String} {tail : List Event}
    (h : Ending w k (some e.id) rest beyond tail) :
    Ending w (k + 1) came (passing n event (some e.id) rest) beyond tail := by
  cases h with
  | complete completed => exact .complete completed
  | deadEnd completed mem last out =>
    exact .deadEnd completed mem (by simp [Simulation.passing, List.getLast?_cons, last]) out
  | @missing a completed absent =>
    have edge : (rest.edges.getLast?).or (some e.id)
        = ((Simulation.passing n event (some e.id) rest).edges.getLast?).or came := by
      cases last : rest.edges.getLast? <;> simp [Simulation.passing, List.getLast?_cons, last]
    rw [edge]
    exact .missing completed absent
  | guard completed spent => exact .guard completed (by simp [Simulation.passing, spent])

/-- A run that passes a node, and goes on from there along an edge. -/
theorem Traced.passing (h : rest.Traced w k (some e.id) e.target) (mem : e ∈ w.edges)
    (source : e.source = n.id) (inner : ¬ w.IsExit n.id) (noted : Notes n.id event) :
    (passing n event (some e.id) rest).Traced w (k + 1) came n.id := by
  obtain ⟨beyond, notes, tail, ending, first, along, events, paired⟩ := h.trace
  refine ⟨Nat.succ_le_succ h.length, ?_, ?_, beyond, event :: notes, tail, ending.passing, rfl, ?_, ?_, ?_⟩
  · intro id before
    cases nodes : rest.nodes with
    | nil => simp [Simulation.passing, nodes] at before
    | cons a as =>
      rw [Simulation.passing, nodes, List.dropLast_cons_cons, ← nodes, List.mem_cons] at before
      rcases before with rfl | later
      · exact inner
      · exact h.inner id later
  · show rest.completed = true ↔ _
    rw [h.completed, Simulation.passing, List.getLast?_cons]
    cases last : rest.nodes.getLast? with
    | none => simpa using inner
    | some a => simp
  · cases points : rest.nodes ++ beyond.toList with
    | nil => simp [points] at first
    | cons a as =>
      rw [points] at first along
      cases first
      show Paths.Along w.edges (n.id :: (rest.nodes ++ beyond.toList)) (e.id :: rest.edges)
      rw [points, ← source]
      exact .step mem along
  · rw [Simulation.passing, events, List.cons_append]
  · exact .cons noted paired

/-- From every point on, a run is a path along edges of the workflow, and notes what it does. -/
theorem traced_run (distinct : w.nodeIds.Nodup) {current : String} :
    (run w contact rolls k p current).Traced w k p.edge current := by
  induction k generalizing p current with
  | zero =>
    exact ⟨Nat.le_refl _, by simp [run], by simp [run], some current, [], [.guard], .guard rfl rfl, rfl,
      .last current, rfl, .nil⟩
  | succ k ih =>
    rw [run]
    cases found : Workflow.indexed? w.nodes current with
    | none =>
      have absent : current ∉ w.nodeIds := by
        intro mem
        have there := Workflow.isSome_indexed?.2 mem
        simp [found] at there
      exact ⟨Nat.zero_le _, by simp, by simp, some current, [], _, .missing rfl absent, rfl, .last current,
        by simp, .nil⟩
    | some n =>
      obtain ⟨mem, rfl⟩ := Workflow.mem_of_indexed? found
      have exit_iff := Workflow.isExit_iff distinct mem
      simp only
      split
      · next exit =>
        exact ⟨Nat.succ_le_succ (Nat.zero_le _), by simp [passing], by simp [passing, exit_iff, exit], none,
          [_], [], .complete rfl, rfl, .last _, rfl, .cons ⟨rfl, rfl⟩ .nil⟩
      · next inner =>
        split
        · next out =>
          exact ⟨Nat.succ_le_succ (Nat.zero_le _), by simp [passing], by simp [passing, exit_iff, inner], none,
            [_], [.deadEnd n], .deadEnd rfl mem rfl (nextEdge_eq_none out), rfl, .last _, rfl,
            .cons ⟨rfl, rfl⟩ .nil⟩
        · next e next =>
          obtain ⟨memE, source⟩ : e ∈ w.edges ∧ e.source = n.id := by
            simpa [Workflow.edgesFrom] using mem_of_nextEdge next
          have onward :=
            @ih ⟨p.step + 1, if n.isA .split then p.rolled + 1 else p.rolled, some e.id⟩ e.target
          exact onward.passing memE source (fun exit => inner (exit_iff.1 exit)) ⟨rfl, rfl⟩

end Simulation

namespace Workflow

/-- What a whole dry run leaves behind: a path from the trigger on, and one event for every node of it, with
nothing after them if the run is complete, and else with one warning. -/
structure TracedFrom (w : Workflow) (t : Node) (budget : Nat) (s : Simulation) : Prop
    extends Simulation.Traced w budget none t.id s where
  starts : s.nodes.head? = some t.id
  reachable : ∀ id ∈ s.nodes, id ∈ w.reachable
  events : ∃ notes rest, s.events = notes ++ rest ∧ List.Forall₂ Simulation.Notes s.nodes notes
    ∧ if s.completed then rest = [] else ∃ e, rest = [e] ∧ e.level = .warning

/-- Where identifiers are distinct and there is a trigger, a dry run that may pass a node is a path from the
trigger along edges of the workflow, with an honest account of what it visited and how it ended. -/
theorem traced_simulate (w : Workflow) (distinct : w.nodeIds.Nodup) {t : Node}
    (trigger : w.trigger? = some t) (contact : Contact) (rolls : Nat → Float) {budget : Nat}
    (room : 1 ≤ budget) : w.TracedFrom t budget (w.simulate contact rolls budget) := by
  have traced : (Simulation.run w contact rolls budget {} t.id).Traced w budget
      (Simulation.Progress.edge {}) t.id := Simulation.traced_run distinct
  obtain ⟨k, rfl⟩ : ∃ k, budget = k + 1 := ⟨budget - 1, by omega⟩
  have found : indexed? w.nodes t.id = some t :=
    (indexed?_eq_some_iff distinct).2 ⟨List.mem_of_find?_eq_some trigger, rfl⟩
  rw [simulate, trigger]
  obtain ⟨beyond, notes, rest, ending, first, along, events, paired⟩ := traced.trace
  refine ⟨traced, Simulation.head?_run found, fun id visited => ?_, notes, rest, events, paired, ending.warned⟩
  exact (mem_reachable_iff trigger).2 (along.leads first id (List.mem_append_left _ visited))

/-- Where identifiers are distinct and there is a trigger, a dry run that may pass a node is taken exactly if the
branches of the visited conditions can be picked.  It is a path from the trigger along edges of the workflow, with
an honest account of what it visited and how it ended. -/
theorem traced_trySimulate (w : Workflow) (distinct : w.nodeIds.Nodup) {t : Node}
    (trigger : w.trigger? = some t) (contact : Contact) (rolls : Nat → Float) {budget : Nat}
    (room : 1 ≤ budget) :
    ((∃ s, w.trySimulate contact rolls budget = .ok s)
        ↔ w.ReadsVisits contact (w.simulate contact rolls budget).nodes)
      ∧ ∀ s, w.trySimulate contact rolls budget = .ok s → w.TracedFrom t budget s := by
  refine ⟨exists_trySimulate_iff, fun s ran => ?_⟩
  obtain rfl := (trySimulate_eq_ok_iff.1 ran).2
  exact traced_simulate w distinct trigger contact rolls room

/-- Two pauses that follow each other for ever. -/
def circling : Workflow :=
  { id := "w"
    nodes := [{ id := "t", config := .trigger {} }, { id := "a", config := .wait {} },
      { id := "b", config := .wait {} }]
    edges := [{ id := "e1", source := "t", target := "a" }, { id := "e2", source := "a", target := "b" },
      { id := "e3", source := "b", target := "a" }] }

/-- In a circle, the run comes to a node again that the guard does not let it pass. -/
theorem traced_trySimulate_circling :
    circling.nodeIds.Nodup
      ∧ circling.trigger? = some { id := "t", config := .trigger {} }
      ∧ 1 ≤ 4
      ∧ ∃ s, circling.trySimulate {} (fun _ => 0.0) 4 = .ok s
        ∧ circling.TracedFrom { id := "t", config := .trigger {} } 4 s
        ∧ s.nodes = ["t", "a", "b", "a"] ∧ s.edges = ["e1", "e2", "e3", "e2"] := by
  have room : 1 ≤ 4 := by decide
  obtain ⟨runs, traces⟩ := traced_trySimulate circling (by decide) rfl {} (fun _ => 0.0) room
  obtain ⟨s, ran⟩ := runs.2 (by decide +kernel)
  obtain rfl := (trySimulate_eq_ok_iff.1 ran).2
  exact ⟨by decide, rfl, by decide, _, ran, traces _ ran, by decide +kernel, by decide +kernel⟩

/-- Where the condition after the trigger cannot be read, a run that comes to it is not taken. -/
theorem not_traced_overlong :
    overlong.nodeIds.Nodup ∧ overlong.trigger? = some { id := "t", config := .trigger {} }
      ∧ ¬ ∃ s, overlong.trySimulate {} (fun _ => 0.5) 2 = .ok s :=
  ⟨by decide, rfl, not_trySimulate_overlong _ _ 0⟩

end Workflow

end Journey
