import Journey.Proofs.Graph.Agreement
import Journey.Proofs.Workflow.Restored
import Journey.Review

/-!
# Journey.Proofs.Graph.Published -- which rules a published workflow may break

The review before publication and the list of breaches look at different sides of a workflow.  The review
asks for one trigger, for blocks that the runner knows and for nodes that are all reached, and follows the
one way that the runner takes.  The rules are about every edge.  So a workflow may be published that breaks
rules, on branches that the runner never takes; `isOverlooked` lists the breaches that can be found in it.

Of the others a published workflow has none, but for loops, and it has a loop only beside a breach that is
overlooked.  Where everything is reached from a point that no edge enters, and no point on the way is
entered from two, there is no loop (`Paths.acyclic_of_reached`).  Main statement:
`overlooked_of_canPublish`.
-/

namespace Journey

set_option autoImplicit false

/-! ## Loops of what is reached -/

namespace Paths

variable {edges : List Edge} {a b t : String}

/-- A path is empty or has a last edge. -/
theorem Leads.last (h : Leads edges a b) :
    a = b ∨ ∃ e ∈ edges, e.target = b ∧ Leads edges a e.source := by
  induction h with
  | here a => exact .inl rfl
  | @step e b mem _ ih =>
    rcases ih with rfl | ⟨f, memF, target, path⟩
    · exact .inr ⟨e, mem, rfl, .here _⟩
    · exact .inr ⟨f, memF, target, .step mem path⟩

/-- A path is empty or its start is the source of an edge. -/
theorem Leads.first (h : Leads edges a b) : a = b ∨ ∃ e ∈ edges, e.source = a := by
  cases h with
  | here a => exact .inl rfl
  | step mem _ => exact .inr ⟨_, mem, rfl⟩

/-- What is reached from a point that no edge enters has no loop, if no point from which an edge goes on
is entered from two points. -/
theorem acyclic_of_reached (reached : ∀ e ∈ edges, Leads edges t e.source)
    (start : ∀ e ∈ edges, e.target ≠ t)
    (single : ∀ e ∈ edges, ∀ f ∈ edges, ∀ g ∈ edges, e.target = f.target → g.source = f.target →
      e.source = f.source) : Acyclic edges := by
  intro e mem loop
  -- A point is on the loop if it lies between the two ends of the edge that closes it.
  have entered : ∀ v, Leads edges e.target v → Leads edges v e.source →
      ∃ g ∈ edges, g.target = v ∧ Leads edges e.target g.source ∧ Leads edges g.source e.source := by
    intro v onto off
    rcases onto.last with rfl | ⟨g, memG, rfl, path⟩
    · exact ⟨e, mem, rfl, loop, .here _⟩
    · exact ⟨g, memG, rfl, path, .step memG off⟩
  have left : ∀ v, Leads edges v e.source → ∃ g ∈ edges, g.source = v := by
    intro v off
    rcases off.first with rfl | leaves
    · exact ⟨e, mem, rfl⟩
    · exact leaves
  -- Such a point is entered along the loop only, so a path that ends on the loop began on it.
  have back : ∀ a b, Leads edges a b → Leads edges e.target b → Leads edges b e.source →
      Leads edges e.target a ∧ Leads edges a e.source := by
    intro a b path
    induction path with
    | here a => exact fun onto off => ⟨onto, off⟩
    | @step f b memF _ ih =>
      intro onto off
      obtain ⟨onto, off⟩ := ih onto off
      obtain ⟨g, memG, target, ontoG, offG⟩ := entered f.target onto off
      obtain ⟨h, memH, source⟩ := left f.target off
      have same : g.source = f.source := single g memG f memF h memH target source
      exact same ▸ ⟨ontoG, offG⟩
  obtain ⟨onto, off⟩ := back t e.source (reached e mem) loop (.here _)
  obtain ⟨g, memG, target, -⟩ := entered t onto off
  exact start g memG target

end Paths

/-! ## Items and breaches -/

/-- An item passes exactly if what it asks for holds. -/
@[simp] theorem ReviewItem.passed_of (id label : String) (holds : Bool) (otherwise : String) :
    (ReviewItem.of id label holds otherwise).passed = holds := by
  cases holds <;> rfl

namespace Problem

/-- A breach that no item of the review looks for. -/
def isOverlooked : Problem → Bool
  | .repeatedNodeIds | .unknownSource .. | .unknownTarget .. | .repeatedEdge .. | .exitLeft ..
  | .triggerEntered .. | .unknownBranch .. | .branchShared .. | .severalInputs .. => true
  | _ => false

/-- A loop, of one edge or of several. -/
def isLoop : Problem → Bool
  | .loop | .selfLoop .. => true
  | _ => false

/-- A breach of the rules on identifiers: two nodes have one, or no node has it. -/
def isOfIds : Problem → Bool
  | .repeatedNodeIds | .unknownSource .. | .unknownTarget .. => true
  | _ => false

end Problem

namespace Workflow

variable {w : Workflow} {nodes : List Node} {earlier es : List Edge} {e f : Edge} {p : Problem}

/-! ## The breaches of one edge -/

/-- The breaches of an edge, given the edges between nodes before it. -/
def problemsAt (nodes : List Node) (earlier : List Edge) (e : Edge) : List Problem :=
  match indexed? nodes e.source, indexed? nodes e.target with
  | some source, some target => edgeProblems source target earlier e
  | source, target => danglingProblems source target e

theorem edgesProblems_cons (nodes : List Node) (earlier : List Edge) (e : Edge) (es : List Edge) :
    ∃ later, edgesProblems nodes earlier (e :: es)
      = problemsAt nodes earlier e ++ edgesProblems nodes later es := by
  rw [edgesProblems, problemsAt]
  cases indexed? nodes e.source with
  | none => exact ⟨_, rfl⟩
  | some source =>
    cases indexed? nodes e.target with
    | none => exact ⟨_, rfl⟩
    | some target => exact ⟨_, rfl⟩

/-- Every breach of edges is one of some edge. -/
theorem mem_problemsAt (mem : p ∈ edgesProblems nodes earlier es) :
    ∃ e ∈ es, ∃ before, p ∈ problemsAt nodes before e := by
  induction es generalizing earlier with
  | nil => cases mem
  | cons e es ih =>
    obtain ⟨later, split⟩ := edgesProblems_cons nodes earlier e es
    rw [split] at mem
    rcases List.mem_append.1 mem with here | there
    · exact ⟨e, List.mem_cons_self, earlier, here⟩
    · obtain ⟨f, memF, found⟩ := ih there
      exact ⟨f, List.mem_cons_of_mem _ memF, found⟩

/-- The breaches of every edge are among those of all edges. -/
theorem problemsAt_subset (mem : e ∈ es) :
    ∃ before, ∀ p ∈ problemsAt nodes before e, p ∈ edgesProblems nodes earlier es := by
  induction es generalizing earlier with
  | nil => cases mem
  | cons f es ih =>
    obtain ⟨later, split⟩ := edgesProblems_cons nodes earlier f es
    rw [split]
    rcases List.mem_cons.1 mem with rfl | there
    · exact ⟨earlier, fun p mem => List.mem_append_left _ mem⟩
    · obtain ⟨before, sub⟩ := ih there
      exact ⟨before, fun p mem => List.mem_append_right _ (sub p mem)⟩

/-- A breach of an edge is overlooked, is a loop, or is about a variant of a split. -/
theorem kind_of_mem_problemsAt (mem : p ∈ problemsAt nodes earlier e) :
    p.isOverlooked = true ∨ (p.isLoop = true ∧ e.source = e.target)
      ∨ ∃ n ∈ nodes, n.isA .split = true := by
  unfold problemsAt at mem
  split at mem
  · next source target atSource _ =>
    simp only [edgeProblems, List.mem_append, List.mem_ite_nil_right, List.mem_singleton] at mem
    rcases mem with (((((⟨-, rfl⟩ | ⟨-, rfl⟩) | ⟨-, rfl⟩) | ⟨same, rfl⟩) | ⟨-, rfl⟩) | ⟨split, rfl⟩)
      | ⟨-, rfl⟩
    · exact .inl rfl
    · exact .inl rfl
    · exact .inl rfl
    · exact .inr (.inl ⟨rfl, by simpa using same⟩)
    · exact .inl rfl
    · exact .inr (.inr ⟨source, (mem_of_indexed? atSource).1, (Bool.and_eq_true_iff.1 split).1⟩)
    · exact .inl rfl
  · simp only [danglingProblems, List.mem_append, List.mem_ite_nil_right, List.mem_singleton] at mem
    rcases mem with ⟨-, rfl⟩ | ⟨-, rfl⟩
    · exact .inl rfl
    · exact .inl rfl

/-- Edges between nodes have no breach that is about identifiers. -/
theorem isOfIds_of_mem_problemsAt (source : (indexed? nodes e.source).isSome = true)
    (target : (indexed? nodes e.target).isSome = true) (mem : p ∈ problemsAt nodes earlier e) :
    p.isOfIds = false := by
  obtain ⟨s, atSource⟩ := Option.isSome_iff_exists.1 source
  obtain ⟨t, atTarget⟩ := Option.isSome_iff_exists.1 target
  rw [problemsAt, atSource, atTarget] at mem
  cases p with
  | repeatedNodeIds | unknownSource | unknownTarget => simp [edgeProblems] at mem
  | _ => rfl

/-- The breach at a node is that it is entered too often. -/
theorem eq_severalInputs_of_mem {targets : List String} {id : String}
    (mem : p ∈ inputProblems nodes targets id) : ∃ title id count, p = .severalInputs title id count := by
  unfold inputProblems at mem
  split at mem
  · simp only [List.mem_ite_nil_right, List.mem_singleton] at mem
    exact ⟨_, _, _, mem.2⟩
  · cases mem

theorem mem_problems_iff :
    p ∈ w.problems ↔ p ∈ w.nodeProblems ∨ p ∈ edgesProblems w.nodes [] w.edges
      ∨ (∃ id ∈ (attached w.nodes w.edges).map (·.target),
          p ∈ inputProblems w.nodes ((attached w.nodes w.edges).map (·.target)) id)
      ∨ (Paths.hasCycle w.edges = true ∧ p = .loop) := by
  simp only [problems, hasCycle_eq, List.mem_append, List.mem_flatMap, List.mem_eraseDups,
    List.mem_ite_nil_right, List.mem_singleton, or_assoc]

/-! ## Workflows with nothing that is overlooked -/

/-- No breach of the workflow is overlooked. -/
def NoOversight (w : Workflow) : Prop := ∀ p ∈ w.problems, p.isOverlooked = false

namespace NoOversight

theorem nodup (h : w.NoOversight) : w.nodeIds.Nodup := by
  rw [← length_eraseDups_eq_iff]
  by_contra repeated
  have found : Problem.repeatedNodeIds ∈ w.problems := by
    refine mem_problems_iff.2 (.inl (List.mem_append_right _ ?_))
    rw [if_neg repeated]
    exact List.mem_singleton_self _
  cases h _ found

/-- Both ends of an edge are nodes; the source is no exit, and the target is no trigger. -/
theorem ends (h : w.NoOversight) (mem : e ∈ w.edges) :
    ∃ s t, indexed? w.nodes e.source = some s ∧ indexed? w.nodes e.target = some t
      ∧ s.isA .exit = false ∧ t.isA .trigger = false := by
  obtain ⟨before, sub⟩ : ∃ before, ∀ p ∈ problemsAt w.nodes before e,
      p ∈ edgesProblems w.nodes [] w.edges := problemsAt_subset mem
  have spared : ∀ p ∈ problemsAt w.nodes before e, p.isOverlooked = false :=
    fun p mem => h p (mem_problems_iff.2 (.inr (.inl (sub p mem))))
  unfold problemsAt at spared
  cases atSource : indexed? w.nodes e.source with
  | none =>
    have found := spared (.unknownSource e.id e.source) (by simp [atSource, danglingProblems])
    cases found
  | some s =>
    cases atTarget : indexed? w.nodes e.target with
    | none =>
      have found := spared (.unknownTarget e.id e.target) (by simp [atSource, atTarget, danglingProblems])
      cases found
    | some t =>
      rw [atSource, atTarget] at spared
      refine ⟨s, t, rfl, rfl, ?_, ?_⟩
      · by_contra exit
        have found := spared (.exitLeft s.title s.id) (by simpa [edgeProblems] using exit)
        cases found
      · by_contra trigger
        have found := spared (.triggerEntered t.title t.id) (by simpa [edgeProblems] using trigger)
        cases found

theorem attached (h : w.NoOversight) : attached w.nodes w.edges = w.edges := by
  refine List.filter_eq_self.2 fun e mem => ?_
  obtain ⟨s, t, atSource, atTarget, -⟩ := h.ends mem
  rw [atSource, atTarget]
  rfl

/-- Edges that enter one node that is no exit have one source. -/
theorem source_eq (h : w.NoOversight) (memE : e ∈ w.edges) (memF : f ∈ w.edges)
    (same : e.target = f.target) (inner : takesOneInput w.nodes e.target = true) :
    e.source = f.source := by
  have once : ∀ id ∈ w.edges.map (·.target), takesOneInput w.nodes id = true →
      (w.edges.map (·.target)).count id ≤ 1 := by
    intro id mem
    rw [← inputProblems_eq_nil_iff, List.eq_nil_iff_forall_not_mem]
    intro p found
    have breach := h p (mem_problems_iff.2 (.inr (.inr (.inl ⟨id, by rwa [h.attached], by
      rwa [h.attached]⟩))))
    obtain ⟨title, id, count, rfl⟩ := eq_severalInputs_of_mem found
    cases breach
  have apart := List.pairwise_map.1 (count_le_one_iff.1 once)
  have distinct : ((w.edges.filter fun e => takesOneInput w.nodes e.target).map (·.target)).Nodup := by
    rw [List.Nodup, List.pairwise_map, List.pairwise_filter]
    refine apart.imp fun outer inner _ same => ?_
    rw [outer same] at inner
    cases inner
  have memE' : e ∈ w.edges.filter fun e => takesOneInput w.nodes e.target :=
    List.mem_filter.2 ⟨memE, inner⟩
  have memF' : f ∈ w.edges.filter fun e => takesOneInput w.nodes e.target :=
    List.mem_filter.2 ⟨memF, same ▸ inner⟩
  rw [List.inj_on_of_nodup_map distinct memE' memF' same]

end NoOversight

/-! ## Published workflows -/

/-- What the review asks of a workflow, as far as the rules ask it as well. -/
theorem review_of_canPublish (h : w.canPublish = true) :
    w.nodes.countP (·.isA .trigger) = 1 ∧ (∀ n ∈ w.nodes, n.id ∈ w.reachable)
      ∧ ∀ n ∈ w.nodes, n.kind.block.runnable = true := by
  simp only [canPublish, review, ReviewItem.counting, List.all_cons, Bool.and_eq_true,
    ReviewItem.passed_of, List.isEmpty_iff, List.filter_eq_nil_iff, beq_iff_eq] at h
  obtain ⟨one, -, -, -, -, reached, runnable, -⟩ := h
  exact ⟨one, by simpa using reached, by simpa using runnable⟩

/-- A published workflow with nothing that is overlooked has no loop. -/
theorem acyclic_of_canPublish (publishable : w.canPublish = true) (h : w.NoOversight) :
    Paths.Acyclic w.edges := by
  obtain ⟨one, reached, -⟩ := review_of_canPublish publishable
  have there : w.trigger?.isSome = true := by
    rw [trigger?, List.find?_isSome, ← List.countP_pos_iff]
    omega
  obtain ⟨t, first⟩ := Option.isSome_iff_exists.1 there
  have memT : t ∈ w.nodes := List.mem_of_find?_eq_some first
  have isTrigger : t.isA .trigger = true := by simpa using List.find?_some first
  have leads : ∀ n ∈ w.nodes, Paths.Leads w.edges t.id n.id := fun n mem =>
    (mem_reachable_iff first).1 (reached n mem)
  refine Paths.acyclic_of_reached (t := t.id) ?_ ?_ ?_
  · intro e mem
    obtain ⟨s, -, atSource, -⟩ := h.ends mem
    obtain ⟨memS, same⟩ := mem_of_indexed? atSource
    exact same ▸ leads s memS
  · intro e mem same
    obtain ⟨-, n, -, atTarget, -, noTrigger⟩ := h.ends mem
    have atT := (indexed?_eq_some_iff h.nodup).2 ⟨memT, same.symm⟩
    rw [atT] at atTarget
    cases atTarget
    rw [isTrigger] at noTrigger
    cases noTrigger
  · intro e memE f memF g memG same goesOn
    obtain ⟨s, -, atSource, -, noExit, -⟩ := h.ends memG
    refine h.source_eq memE memF same ?_
    rw [takesOneInput, same, ← goesOn, atSource]
    simpa using noExit

/-- A breach in a published workflow is overlooked or a loop. -/
theorem overlooked_or_loop (publishable : w.canPublish = true) (mem : p ∈ w.problems) :
    p.isOverlooked = true ∨ (p.isLoop = true ∧ ¬ Paths.Acyclic w.edges) := by
  obtain ⟨one, -, runnable⟩ := review_of_canPublish publishable
  rcases mem_problems_iff.1 mem with ofNodes | ofEdges | ⟨id, -, ofInputs⟩ | ⟨loop, rfl⟩
  · rw [nodeProblems, one] at ofNodes
    simp only [List.nil_append] at ofNodes
    split at ofNodes
    · cases ofNodes
    · rw [List.mem_singleton.1 ofNodes]
      exact .inl rfl
  · obtain ⟨e, memE, before, found⟩ := mem_problemsAt ofEdges
    rcases kind_of_mem_problemsAt found with overlooked | ⟨loop, same⟩ | ⟨n, memN, split⟩
    · exact .inl overlooked
    · exact .inr ⟨loop, fun acyclic => acyclic e memE (same ▸ .here _)⟩
    · have runs := runnable n memN
      rw [beq_iff_eq.1 split] at runs
      cases runs
  · obtain ⟨title, id, count, rfl⟩ := eq_severalInputs_of_mem ofInputs
    exact .inl rfl
  · refine .inr ⟨rfl, fun acyclic => ?_⟩
    rw [Paths.hasCycle_eq_false_iff.2 acyclic] at loop
    cases loop

/-- Every breach in a published workflow is overlooked by the review, or is a loop in a workflow with a
breach that is.  In a workflow that is intact, as a restored one is, none of them is about
identifiers. -/
theorem overlooked_of_canPublish (w : Workflow) (publishable : w.canPublish = true) :
    (∀ p ∈ w.problems, p.isOverlooked = true
        ∨ (p.isLoop = true ∧ ∃ q ∈ w.problems, q.isOverlooked = true))
      ∧ (w.Intact → ∀ p ∈ w.problems, p.isOfIds = false) := by
  constructor
  · intro p mem
    rcases overlooked_or_loop publishable mem with overlooked | ⟨loop, cyclic⟩
    · exact .inl overlooked
    · refine .inr ⟨loop, ?_⟩
      by_contra notLoop
      have noOversight : w.NoOversight :=
        fun q memQ => Bool.eq_false_iff.2 fun is => notLoop ⟨q, memQ, is⟩
      exact cyclic (acyclic_of_canPublish publishable noOversight)
  · intro intact p mem
    rcases mem_problems_iff.1 mem with ofNodes | ofEdges | ⟨id, -, ofInputs⟩ | ⟨-, rfl⟩
    · unfold nodeProblems at ofNodes
      rw [if_pos (length_eraseDups_eq_iff.2 intact.nodeIds), List.append_nil] at ofNodes
      split at ofNodes <;> simp_all [Problem.isOfIds]
    · obtain ⟨e, memE, before, found⟩ := mem_problemsAt ofEdges
      obtain ⟨source, target⟩ := intact.ends e memE
      exact isOfIds_of_mem_problemsAt (isSome_indexed?.2 source) (isSome_indexed?.2 target) found
    · obtain ⟨title, id, count, rfl⟩ := eq_severalInputs_of_mem ofInputs
      rfl
    · rfl

/-- A condition that goes straight to an exit on its first and its last branch, with a pause on the one
in between that breaks every rule for edges. -/
def tangled : Workflow :=
  { id := "w"
    nodes := [{ id := "t", config := .trigger {} },
      { id := "c", config := .condition { clauses := [{}, { id := "else_if_1" }] } },
      { id := "x", config := .exit {} }, { id := "p", config := .wait {} }]
    edges := [{ id := "e1", source := "t", target := "c" },
      { id := "e2", source := "c", target := "x", sourceHandle := some "if" },
      { id := "e3", source := "c", target := "x", sourceHandle := some "else" },
      { id := "e4", source := "c", target := "p", sourceHandle := some "else_if_1" },
      { id := "e5", source := "c", target := "p", sourceHandle := some "else_if_1" },
      { id := "e6", source := "c", target := "p", sourceHandle := some "maybe" },
      { id := "e7", source := "p", target := "p" },
      { id := "e8", source := "x", target := "t" }] }

/-- The same with a second exit of the same name, an edge from no node and an edge to none. -/
def frayed : Workflow :=
  { tangled with
    nodes := tangled.nodes ++ [{ id := "x", config := .exit {} }]
    edges := tangled.edges
      ++ [{ id := "e9", source := "n", target := "x" }, { id := "e10", source := "x", target := "n" }] }

/-- The loops of the tangled workflow come with a breach that is overlooked. -/
theorem overlooked_of_canPublish_tangled :
    tangled.canPublish = true ∧ Problem.loop ∈ tangled.problems
      ∧ ∃ q ∈ tangled.problems, q.isOverlooked = true := by
  have publishable : tangled.canPublish = true := by decide +kernel
  have loop : Problem.loop ∈ tangled.problems := by decide +kernel
  refine ⟨publishable, loop, ?_⟩
  rcases (overlooked_of_canPublish tangled publishable).1 _ loop with overlooked | ⟨-, found⟩
  · cases overlooked
  · exact found

/-- Both may be published, and between them they have every breach that is overlooked. -/
theorem canPublish_tangled :
    (tangled.canPublish = true ∧ tangled.problems =
        [.repeatedEdge "c" "p", .branchShared "else_if_1" "", .unknownBranch "" "maybe",
          .selfLoop "" "p", .exitLeft "" "x", .triggerEntered "" "t", .severalInputs "" "p" 4, .loop])
      ∧ frayed.canPublish = true ∧ frayed.problems =
        [.repeatedNodeIds, .repeatedEdge "c" "p", .branchShared "else_if_1" "",
          .unknownBranch "" "maybe", .selfLoop "" "p", .exitLeft "" "x", .triggerEntered "" "t",
          .unknownSource "e9" "n", .unknownTarget "e10" "n", .severalInputs "" "p" 4, .loop] := by
  refine ⟨⟨?_, ?_⟩, ?_, ?_⟩ <;> decide +kernel

end Workflow

end Journey
