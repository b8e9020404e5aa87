import Journey.Proofs.Graph.Agreement
import Journey.Review
import Journey.Simulation
import Mathlib.Data.List.Find

/-!
# Journey.Proofs.Graph.Reordered -- the order of the nodes carries no meaning

Where identifiers are distinct and there is at most one trigger, a node is found by its identifier and the
trigger by its kind wherever they stand in the list (`Reorders.indexed?`, `Reorders.trigger?`).  The rules
for edges, the walk that writes a flow and the dry run look at nodes in no other way.  The review counts
nodes as well, and a count does not depend on the order either.

The search for loops is different: it begins at the nodes in their order, and so it enters and leaves the
points of another list in another order.  Its answer is the same because it finds a loop exactly when there
is one (`hasCycle_eq`).  Main statement: `sameAnswers_of_reorders`.
-/

namespace Journey

set_option autoImplicit false

namespace Workflow

/-- The same edges between the same nodes, which may be listed in another order. -/
structure Reorders (v w : Workflow) : Prop where
  nodes : v.nodes.Perm w.nodes
  edges : v.edges = w.edges

/-- Two workflows of which everything that is asked of one is answered the same of the other. -/
structure SameAnswers (v w : Workflow) : Prop where
  problems : v.problems = w.problems
  hasCycle : v.hasCycle = w.hasCycle
  reachable : v.reachable = w.reachable
  compile : ∀ budget, v.compile budget = w.compile budget
  simulate : ∀ contact rolls budget,
    v.simulate contact rolls budget = w.simulate contact rolls budget
  review : ∀ c, v.review c = w.review c

/-! ## What is found in the nodes -/

namespace Reorders

variable {v w : Workflow}

theorem nodup (h : v.Reorders w) (distinct : w.nodeIds.Nodup) : v.nodeIds.Nodup :=
  (h.nodes.map _).nodup_iff.2 distinct

theorem indexed? (h : v.Reorders w) (distinct : w.nodeIds.Nodup) :
    indexed? v.nodes = indexed? w.nodes := by
  funext id
  ext n
  rw [indexed?_eq_some_iff (h.nodup distinct), indexed?_eq_some_iff distinct, h.nodes.mem_iff]

theorem trigger? (h : v.Reorders w) (single : w.nodes.countP (·.isA .trigger) ≤ 1) :
    v.trigger? = w.trigger? := by
  refine (List.find?_eq_find?_of_perm h.nodes.symm ?_).symm
  rintro n ⟨memN, isN⟩ m ⟨memM, isM⟩
  have memN' : n ∈ w.nodes.filter (·.isA .trigger) := List.mem_filter.2 ⟨memN, isN⟩
  have memM' : m ∈ w.nodes.filter (·.isA .trigger) := List.mem_filter.2 ⟨memM, isM⟩
  rw [List.countP_eq_length_filter] at single
  rcases Nat.le_one_iff_eq_zero_or_eq_one.1 single with empty | one
  · rw [List.length_eq_zero_iff.1 empty] at memN'
    cases memN'
  · obtain ⟨t, only⟩ := List.length_eq_one_iff.1 one
    rw [only, List.mem_singleton] at memN' memM'
    exact memN'.trans memM'.symm

end Reorders

/-! ## The breaches of the rules -/

variable {v w : Workflow} {ns ms : List Node}

theorem edgesProblems_congr (same : indexed? ns = indexed? ms) (earlier edges : List Edge) :
    edgesProblems ns earlier edges = edgesProblems ms earlier edges := by
  induction edges generalizing earlier with
  | nil => rfl
  | cons e edges ih => simp only [edgesProblems, same, ih]

theorem attached_congr (same : indexed? ns = indexed? ms) (edges : List Edge) :
    attached ns edges = attached ms edges := by
  simp only [attached, same]

theorem inputProblems_congr (same : indexed? ns = indexed? ms) (targets : List String) :
    inputProblems ns targets = inputProblems ms targets := by
  funext id
  simp only [inputProblems, same]

theorem Reorders.hasCycle (h : v.Reorders w) : v.hasCycle = w.hasCycle := by
  rw [hasCycle_eq, hasCycle_eq, h.edges]

theorem Reorders.nodeProblems (h : v.Reorders w) (distinct : w.nodeIds.Nodup) :
    v.nodeProblems = w.nodeProblems := by
  rw [Workflow.nodeProblems, Workflow.nodeProblems, h.nodes.countP_eq,
    if_pos (length_eraseDups_eq_iff.2 distinct),
    if_pos (length_eraseDups_eq_iff.2 (h.nodup distinct))]

theorem Reorders.problems (h : v.Reorders w) (distinct : w.nodeIds.Nodup) :
    v.problems = w.problems := by
  have same := h.indexed? distinct
  simp only [Workflow.problems, h.nodeProblems distinct, h.hasCycle, h.edges,
    edgesProblems_congr same, attached_congr same, inputProblems_congr same]

end Workflow

/-! ## The flow -/

namespace Compilation

variable {v w : Workflow} {ns ms : List Node}

theorem onward_congr (same : Workflow.indexed? ns = Workflow.indexed? ms) (e : Option Edge) :
    onward ns e = onward ms e := by
  rw [onward, onward, same]

theorem planCondition_congr (same : Workflow.indexed? ns = Workflow.indexed? ms) (n : Node)
    (clauses : List Clause) (edges : List Edge) :
    planCondition ns n clauses edges = planCondition ms n clauses edges := by
  simp only [planCondition, onward_congr same]

theorem follow_congr (edges : v.edges = w.edges) (n : Node) {rest rest' : String → Compiled}
    (same : rest = rest') : follow v n rest = follow w n rest' := by
  rw [follow, follow, edges, same]

/-- The walk looks at nodes by their identifiers only. -/
theorem walk_congr (same : Workflow.indexed? v.nodes = Workflow.indexed? w.nodes)
    (edges : v.edges = w.edges) (budget : Nat) : walk v budget = walk w budget := by
  induction budget with
  | zero => rfl
  | succ budget ih =>
    funext visited last current
    simp only [walk, same, edges, ih, follow_congr edges _ rfl, planCondition_congr same]

end Compilation

/-! ## The dry run -/

theorem Simulation.run_congr {v w : Workflow}
    (same : Workflow.indexed? v.nodes = Workflow.indexed? w.nodes) (edges : v.edges = w.edges)
    (contact : Contact) (rolls : Nat → Float) (budget : Nat) :
    run v contact rolls budget = run w contact rolls budget := by
  induction budget with
  | zero => rfl
  | succ budget ih =>
    funext p current
    simp only [run, same, edges, ih]

/-! ## The review -/

theorem ReviewItem.counting_congr {found found' : List Node} (same : found.length = found'.length)
    (id label otherwise : String) :
    counting id label found otherwise = counting id label found' otherwise := by
  have empty : found.isEmpty = found'.isEmpty := by
    rw [Bool.eq_iff_iff, List.isEmpty_iff_length_eq_zero, List.isEmpty_iff_length_eq_zero, same]
  rw [counting, counting, same, empty]

namespace Workflow

variable {v w : Workflow}

theorem Reorders.reachable (h : v.Reorders w) (single : w.nodes.countP (·.isA .trigger) ≤ 1) :
    v.reachable = w.reachable := by
  rw [Workflow.reachable, Workflow.reachable, h.trigger? single, h.edges]

theorem Reorders.review (h : v.Reorders w) (single : w.nodes.countP (·.isA .trigger) ≤ 1)
    (c : Compiled) : v.review c = w.review c := by
  have counted (p : Node → Bool) : (v.nodes.filter p).length = (w.nodes.filter p).length :=
    (h.nodes.filter p).length_eq
  have isOpen : v.isOpen = w.isOpen := by
    funext n
    rw [Workflow.isOpen, Workflow.isOpen, h.edges]
  have isDetached : v.isDetached = w.isDetached := by
    funext n
    rw [Workflow.isDetached, Workflow.isDetached, h.edges]
  have exits : (v.exits.any fun n => w.reachable.contains n.id)
      = w.exits.any fun n => w.reachable.contains n.id := (h.nodes.filter _).any_eq
  simp only [Workflow.review, h.reachable single, h.nodes.countP_eq, exits, isOpen, isDetached,
    ReviewItem.counting_congr (counted _)]

/-- Whatever is asked of a workflow with distinct identifiers and at most one trigger, the order of its
nodes does not matter. -/
theorem sameAnswers_of_reorders (v w : Workflow) (h : v.Reorders w) (distinct : w.nodeIds.Nodup)
    (single : w.nodes.countP (·.isA .trigger) ≤ 1) : v.SameAnswers w where
  problems := h.problems distinct
  hasCycle := h.hasCycle
  reachable := h.reachable single
  compile budget := by
    rw [compile, compile, h.trigger? single, Compilation.walk_congr (h.indexed? distinct) h.edges]
    split
    · rfl
    · exact Compilation.follow_congr h.edges _ rfl
  simulate contact rolls budget := by
    rw [simulate, simulate, h.trigger? single, Simulation.run_congr (h.indexed? distinct) h.edges]
  review := h.review single

/-- The forked workflow with its exit first and its trigger last. -/
theorem sameAnswers_forked :
    SameAnswers { forked with nodes := forked.nodes.reverse } forked :=
  sameAnswers_of_reorders _ forked ⟨List.reverse_perm _, rfl⟩ (by decide) (by decide)

end Workflow

end Journey
