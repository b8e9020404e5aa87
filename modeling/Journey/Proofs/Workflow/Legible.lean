import Journey.Proofs.Condition.Legible
import Journey.Proofs.Graph.Rules
import Journey.Runner.Compiled
import Journey.Simulation

/-!
# Journey.Proofs.Workflow.Legible -- which conditions are read on the way

A flow is written, and a dry run taken, once the conditions on the way have been read.  These are the conditions
that the flow has steps for (`Workflow.ReadsSteps`), or those that the run visits, where what their clauses ask for
is shown as well (`Workflow.ReadsVisits`).  Nothing else is converted (`tryCompile_eq_ok_iff`,
`trySimulate_eq_ok_iff`), so a workflow whose settings can all be read has a flow (`Legible.tryCompile`).

The workflow `overlong` is valid and has a condition that cannot be read.
-/

namespace Journey

set_option autoImplicit false

/-- Settings that can be read. -/
def Config.Legible (c : Config) : Prop := Conversion.Succeed c.conversions

instance (c : Config) : Decidable c.Legible :=
  inferInstanceAs (Decidable (Conversion.Succeed c.conversions))

/-- Only the settings of conditions are read. -/
theorem Config.legible_of_kind_ne {c : Config} (other : c.kind ≠ .condition) : c.Legible := by
  cases c with
  | condition c => exact absurd rfl other
  | _ => exact Conversion.succeed_nil

namespace Workflow

/-- All nodes have settings that can be read. -/
def Legible (w : Workflow) : Prop := ∀ n ∈ w.nodes, n.config.Legible

instance (w : Workflow) : Decidable w.Legible :=
  inferInstanceAs (Decidable (∀ n ∈ w.nodes, n.config.Legible))

/-- The conditions that a flow has steps for can be read. -/
def ReadsSteps (w : Workflow) (f : Flow) : Prop :=
  ∀ s ∈ f, s.action.isCondition = true → ∀ n, indexed? w.nodes s.id = some n → n.config.Legible

/-- The conditions among visited nodes can be read, and what they ask for up to the clause that holds can be
shown. -/
def ReadsVisits (w : Workflow) (contact : Contact) (visited : List String) : Prop :=
  ∀ id ∈ visited, ∀ n, indexed? w.nodes id = some n →
    Conversion.Succeed (Simulation.pickConversions contact n.config)

variable {w : Workflow} {f : Flow} {contact : Contact} {visited : List String} {budget : Nat}

theorem succeed_indexed_iff {α : Type} {found : Option α} {conversions : α → List Conversion} :
    Conversion.Succeed ((found.map conversions).getD [])
      ↔ ∀ a, found = some a → Conversion.Succeed (conversions a) := by
  cases found <;> simp

theorem succeed_flowConversions_iff : Conversion.Succeed (w.flowConversions f) ↔ w.ReadsSteps f := by
  simp only [flowConversions, Conversion.succeed_flatMap, succeed_indexed_iff, List.mem_filter, and_imp,
    ReadsSteps, Config.Legible]

theorem succeed_visitConversions_iff :
    Conversion.Succeed (w.visitConversions contact visited) ↔ w.ReadsVisits contact visited := by
  simp only [visitConversions, Conversion.succeed_flatMap, succeed_indexed_iff, ReadsVisits]

instance (w : Workflow) (f : Flow) : Decidable (w.ReadsSteps f) :=
  decidable_of_iff _ succeed_flowConversions_iff

instance (w : Workflow) (contact : Contact) (visited : List String) :
    Decidable (w.ReadsVisits contact visited) :=
  decidable_of_iff _ succeed_visitConversions_iff

/-- A workflow has a flow exactly if the conditions that it has steps for can be read. -/
theorem tryCompile_eq_ok_iff {c : Compiled} :
    w.tryCompile budget = .ok c ↔ w.ReadsSteps (w.compile budget).steps ∧ w.compile budget = c := by
  rw [tryCompile, Conversion.after_eq_ok_iff, succeed_flowConversions_iff]

/-- A dry run is taken exactly if the branches of the visited conditions can be picked. -/
theorem trySimulate_eq_ok_iff {rolls : Nat → Float} {s : Simulation} :
    w.trySimulate contact rolls budget = .ok s ↔
      w.ReadsVisits contact (w.simulate contact rolls budget).nodes ∧ w.simulate contact rolls budget = s := by
  rw [trySimulate, Conversion.after_eq_ok_iff, succeed_visitConversions_iff]

theorem exists_tryCompile_iff :
    (∃ c, w.tryCompile budget = .ok c) ↔ w.ReadsSteps (w.compile budget).steps :=
  Conversion.exists_after_eq_ok_iff.trans succeed_flowConversions_iff

theorem exists_trySimulate_iff {rolls : Nat → Float} :
    (∃ s, w.trySimulate contact rolls budget = .ok s) ↔
      w.ReadsVisits contact (w.simulate contact rolls budget).nodes :=
  Conversion.exists_after_eq_ok_iff.trans succeed_visitConversions_iff

theorem Legible.readsSteps (h : w.Legible) (f : Flow) : w.ReadsSteps f :=
  fun _ _ _ _ found => h _ (mem_of_indexed? found).1

theorem Legible.tryCompile (h : w.Legible) (budget : Nat) : w.tryCompile budget = .ok (w.compile budget) :=
  tryCompile_eq_ok_iff.2 ⟨h.readsSteps _, rfl⟩

/-- A trigger before a condition that asks for a handle that cannot be read. -/
def overlong : Workflow :=
  { id := "w"
    nodes := [{ id := "t", config := .trigger {} }, { id := "c", config := .condition .overlong }]
    edges := [{ id := "e", source := "t", target := "c" }] }

theorem not_legible_overlong {n : Node} (found : indexed? overlong.nodes "c" = some n) :
    ¬ n.config.Legible := by
  cases found
  exact ConditionConfig.not_succeed_overlong

/-- The condition stands on the way, so there is no flow. -/
theorem not_tryCompile_overlong (budget : Nat) : ¬ ∃ c, overlong.tryCompile (budget + 1) = .ok c := by
  intro compiles
  have reads := exists_tryCompile_iff.1 compiles
  have there : (overlong.compile (budget + 1)).steps.any (fun s => s.action.isCondition && s.id == "c") = true := by
    rfl
  obtain ⟨s, mem, here⟩ := List.any_eq_true.1 there
  rw [Bool.and_eq_true, beq_iff_eq] at here
  have found : indexed? overlong.nodes s.id = some { id := "c", config := .condition .overlong } := by
    rw [here.2]
    rfl
  exact not_legible_overlong rfl (reads s mem here.1 _ found)

/-- Nor is there a dry run that comes as far as the condition. -/
theorem not_trySimulate_overlong (contact : Contact) (rolls : Nat → Float) (budget : Nat) :
    ¬ ∃ s, overlong.trySimulate contact rolls (budget + 2) = .ok s := by
  intro runs
  have reads := exists_trySimulate_iff.1 runs
  have nodes : (overlong.simulate contact rolls (budget + 2)).nodes = ["t", "c"] := by rfl
  have there : "c" ∈ (overlong.simulate contact rolls (budget + 2)).nodes := by simp [nodes]
  exact not_legible_overlong rfl (Conversion.succeed_append.1 (reads "c" there _ rfl)).1

end Workflow

end Journey
