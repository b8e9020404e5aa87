import Journey.Proofs.Graph.Paths
import Journey.Workflow.Change
import Journey.Workflow.Loops
import Mathlib.Logic.Basic

/-!
# Journey.Proofs.Graph.Searched -- searches that mark the points they have come to

A search that works off a stack leaves the edges as they are and marks the points instead: for a target
(`seek`), for everything that can be reached (`gather`), and for a loop, with one mark for the points on the
trail and another for those that were left (`scan`).  Each step takes a point off the stack or marks a new
one, whose edges are then no edges of unmarked points any more, so the searches end on every graph.

Two of them are carried by one invariant: the edges of marked points lead to marked points or to the stack
(`Frontier`), and neither dropping a marked point nor marking a new one changes what is reached
(`Frontier.reached_drop_iff`, `Frontier.reached_mark_iff`).  The third goes step by step with the search that
takes edges out (`scan_eq`).  Main statement: all searches are exact (`search_iff_leads`).
-/

namespace Journey

set_option autoImplicit false

namespace Paths

variable {edges rest : List Edge} {stack marked pushed left roots : List String} {trail : List Visit}
  {a b s t : String}

/-! ## Marks -/

/-- The edges that leave points without a mark. -/
def unmarked (edges : List Edge) (marked : List String) : List Edge :=
  edges.filter fun e => !marked.contains e.source

theorem unmarked_cons (edges : List Edge) (a : String) (marked : List String) :
    unmarked edges (a :: marked) = others (unmarked edges marked) a := by
  rw [unmarked, unmarked, others, List.filter_filter]
  refine List.filter_congr fun e _ => ?_
  by_cases same : e.source = a <;> simp [same]

/-- Where all edges that leave a point are kept, the same points follow it. -/
theorem next_filter {p : Edge → Bool} (keeps : ∀ e, e.source = a → p e = true) :
    next (edges.filter p) a = next edges a := by
  rw [next, next, Workflow.edgesFrom, Workflow.edgesFrom, List.filter_filter]
  congr 1
  refine List.filter_congr fun e _ => ?_
  by_cases same : e.source = a
  · simp [same, keeps e same]
  · simp [same]

theorem next_unmarked (new : a ∉ marked) : next (unmarked edges marked) a = next edges a :=
  next_filter fun e same => by simp [same, new]

theorem next_others (other : b ≠ a) : next (others edges a) b = next edges b :=
  next_filter fun e same => by simp [same, other]

theorem length_unmarked_cons (edges : List Edge) (new : a ∉ marked) :
    (unmarked edges (a :: marked)).length + (next edges a).length
      = (unmarked edges marked).length := by
  rw [unmarked_cons, ← next_unmarked new]
  exact length_others_add_length_next _ a

theorem length_unmarked_le (edges : List Edge) {more : List String} (sub : ∀ c ∈ marked, c ∈ more) :
    (unmarked edges more).length ≤ (unmarked edges marked).length := by
  rw [unmarked, unmarked, ← List.countP_eq_length_filter, ← List.countP_eq_length_filter]
  refine List.countP_mono_left fun e _ new => ?_
  simp only [Bool.not_eq_true', List.contains_eq_mem, decide_eq_false_iff_not] at new ⊢
  exact fun old => new (sub _ old)

/-! ## Searches with a stack -/

/-- Whether the target is among the points that come off a stack, whose top is listed first.  A point
that comes off for the first time is marked, and the targets of its edges are put on, the last one on top. -/
def seek (edges : List Edge) (target : String) : List String → List String → Bool
  | [], _ => false
  | a :: stack, marked =>
      if a = target then true
      else if marked.contains a then seek edges target stack marked
      else seek edges target ((next edges a).reverse ++ stack) (a :: marked)
termination_by stack marked => (unmarked edges marked).length + stack.length
decreasing_by
  · simp only [List.length_cons]
    omega
  · next new =>
    have := length_unmarked_cons edges (by simpa using new : a ∉ marked)
    simp only [List.length_append, List.length_reverse, List.length_cons]
    omega

/-- The points that are marked when a stack has been worked off.  Only targets without a mark are put on. -/
def gather (edges : List Edge) : List String → List String → List String
  | [], marked => marked
  | a :: stack, marked =>
      if marked.contains a then gather edges stack marked
      else
        gather edges
          (((next edges a).filter fun b => !(a :: marked).contains b).reverse ++ stack) (a :: marked)
termination_by stack marked => (unmarked edges marked).length + stack.length
decreasing_by
  · simp only [List.length_cons]
    omega
  · next new =>
    have := length_unmarked_cons edges (by simpa using new : a ∉ marked)
    have := List.length_filter_le (fun b => !(a :: marked).contains b) (next edges a)
    simp only [List.length_append, List.length_reverse, List.length_cons]
    omega

/-- The edges of marked points lead to marked points or to points on the stack. -/
def Frontier (edges : List Edge) (stack marked : List String) : Prop :=
  ∀ e ∈ edges, e.source ∈ marked → e.target ∈ marked ∨ e.target ∈ stack

/-- What is marked, or will be when the stack has been worked off. -/
def Reached (edges : List Edge) (stack marked : List String) (t : String) : Prop :=
  t ∈ marked ∨ ∃ s ∈ stack, Leads edges s t

theorem frontier_nil (edges : List Edge) (stack : List String) : Frontier edges stack [] :=
  fun _ _ source => absurd source List.not_mem_nil

/-- A path from a marked point stays among marked points or comes to the stack. -/
theorem Frontier.reached (h : Frontier edges stack marked) (path : Leads edges a b) (start : a ∈ marked) :
    Reached edges stack marked b := by
  induction path with
  | here a => exact .inl start
  | step mem path ih =>
    rcases h _ mem start with inside | outside
    · exact ih inside
    · exact .inr ⟨_, outside, path⟩

theorem Frontier.drop (h : Frontier edges (a :: stack) marked) (old : a ∈ marked) :
    Frontier edges stack marked := by
  intro e mem source
  rcases h e mem source with inside | there
  · exact .inl inside
  · rcases List.mem_cons.1 there with same | below
    · exact .inl (same ▸ old)
    · exact .inr below

theorem Frontier.mark (h : Frontier edges (a :: stack) marked)
    (all : ∀ b ∈ next edges a, b ∈ a :: marked ∨ b ∈ pushed) :
    Frontier edges (pushed ++ stack) (a :: marked) := by
  intro e mem source
  rcases List.mem_cons.1 source with same | old
  · exact (all _ (mem_next.2 ⟨e, mem, same, rfl⟩)).imp_right (List.mem_append_left _)
  · rcases h e mem old with inside | there
    · exact .inl (List.mem_cons_of_mem _ inside)
    · rcases List.mem_cons.1 there with same | below
      · exact .inl (same ▸ List.mem_cons_self)
      · exact .inr (List.mem_append_right _ below)

/-- A marked point on top of the stack adds nothing to what is reached. -/
theorem Frontier.reached_drop_iff (h : Frontier edges (a :: stack) marked) (old : a ∈ marked) :
    Reached edges (a :: stack) marked t ↔ Reached edges stack marked t := by
  constructor
  · rintro (there | ⟨s, mem, path⟩)
    · exact .inl there
    · rcases List.mem_cons.1 mem with rfl | below
      · exact (h.drop old).reached path old
      · exact .inr ⟨s, below, path⟩
  · exact .imp_right fun ⟨s, mem, path⟩ => ⟨s, List.mem_cons_of_mem _ mem, path⟩

/-- What is reached stays the same when the point on top of the stack is marked and the targets of its
edges are put in its place. -/
theorem Frontier.reached_mark_iff (h : Frontier edges (a :: stack) marked)
    (all : ∀ b ∈ next edges a, b ∈ a :: marked ∨ b ∈ pushed) (only : ∀ b ∈ pushed, b ∈ next edges a) :
    Reached edges (a :: stack) marked t ↔ Reached edges (pushed ++ stack) (a :: marked) t := by
  constructor
  · rintro (there | ⟨s, mem, path⟩)
    · exact .inl (List.mem_cons_of_mem _ there)
    · rcases List.mem_cons.1 mem with rfl | below
      · exact (h.mark all).reached path List.mem_cons_self
      · exact .inr ⟨s, List.mem_append_right _ below, path⟩
  · rintro (there | ⟨s, mem, path⟩)
    · rcases List.mem_cons.1 there with rfl | old
      · exact .inr ⟨t, List.mem_cons_self, .here t⟩
      · exact .inl old
    · rcases List.mem_append.1 mem with new | below
      · obtain ⟨e, edge, source, target⟩ := mem_next.1 (only s new)
        subst source target
        exact .inr ⟨e.source, List.mem_cons_self, .step edge path⟩
      · exact .inr ⟨s, List.mem_cons_of_mem _ below, path⟩

/-- The search finds a target that is not marked yet exactly if it is reached. -/
theorem seek_iff (h : Frontier edges stack marked) (new : t ∉ marked) :
    seek edges t stack marked = true ↔ Reached edges stack marked t := by
  induction stack, marked using seek.induct edges t with
  | case1 marked => simp [seek, Reached, new]
  | case2 stack marked =>
    rw [seek, if_pos rfl]
    exact iff_of_true rfl (.inr ⟨t, List.mem_cons_self, .here t⟩)
  | case3 a stack marked other old ih =>
    have old' := List.contains_iff_mem.1 old
    rw [seek, if_neg other, if_pos old, ih (h.drop old') new, h.reached_drop_iff old']
  | case4 a stack marked other unseen ih =>
    have all : ∀ b ∈ next edges a, b ∈ a :: marked ∨ b ∈ (next edges a).reverse :=
      fun b mem => .inr (List.mem_reverse.2 mem)
    have new' : t ∉ a :: marked := fun there =>
      (List.mem_cons.1 there).elim (fun same => other same.symm) new
    rw [seek, if_neg other, if_neg unseen, ih (h.mark all) new',
      h.reached_mark_iff all fun b => List.mem_reverse.1]

/-- Exactly what is reached is marked in the end. -/
theorem mem_gather_iff (h : Frontier edges stack marked) :
    t ∈ gather edges stack marked ↔ Reached edges stack marked t := by
  induction stack, marked using gather.induct edges with
  | case1 marked => simp [gather, Reached]
  | case2 a stack marked old ih =>
    have old' := List.contains_iff_mem.1 old
    rw [gather, if_pos old, ih (h.drop old'), h.reached_drop_iff old']
  | case3 a stack marked unseen ih =>
    have all : ∀ b ∈ next edges a, b ∈ a :: marked
        ∨ b ∈ ((next edges a).filter fun b => !(a :: marked).contains b).reverse := by
      intro b mem
      rw [List.mem_reverse, List.mem_filter]
      by_cases there : b ∈ a :: marked
      · exact .inl there
      · exact .inr ⟨mem, by simpa using there⟩
    rw [gather, if_neg unseen, ih (h.mark all), h.reached_mark_iff all fun b mem => ?_]
    exact (List.mem_filter.1 (List.mem_reverse.1 mem)).1

theorem reached_singleton_iff : Reached edges [s] [] t ↔ Leads edges s t := by
  simp [Reached]

theorem seek_eq_hasPath (edges : List Edge) (s t : String) : seek edges t [s] [] = hasPath edges s t := by
  rw [Bool.eq_iff_iff, seek_iff (frontier_nil edges [s]) List.not_mem_nil, reached_singleton_iff,
    hasPath_iff]

/-! ## The search for a loop -/

/-- The points that a search for a loop has come to. -/
structure Marks where
  /-- Entered, and not yet left. -/
  entered : List String := []
  left : List String := []

/-- The search from a trail on, with the marks it leaves; none if it comes upon a loop. -/
def scan (edges : List Edge) : List Visit → Marks → Option Marks
  | [], m => some m
  | ⟨a, []⟩ :: trail, m => scan edges trail ⟨m.entered.erase a, a :: m.left⟩
  | ⟨a, b :: ahead⟩ :: trail, m =>
      if m.entered.contains b then none
      else if m.left.contains b then scan edges (⟨a, ahead⟩ :: trail) m
      else scan edges (enter edges b :: ⟨a, ahead⟩ :: trail) ⟨b :: m.entered, m.left⟩
termination_by trail m => 2 * (unmarked edges (m.entered ++ m.left)).length + work trail
decreasing_by
  · have sub : ∀ c ∈ m.entered ++ m.left, c ∈ m.entered.erase a ++ a :: m.left := by
      intro c there
      by_cases same : c = a
      · simp [same]
      · simpa [List.mem_erase_of_ne same, same] using there
    have := length_unmarked_le edges sub
    simp only [work]
    omega
  · simp only [work, List.length_cons]
    omega
  · next unentered unleft =>
    have new : b ∉ m.entered ++ m.left := by simpa using And.intro unentered unleft
    have := length_unmarked_cons edges new
    simp only [work, enter, List.length_cons, List.cons_append]
    omega

/-- The searches from points on that were not left before. -/
def scanAll (edges : List Edge) : List String → Marks → Option Marks
  | [], m => some m
  | a :: roots, m =>
      if m.left.contains a then scanAll edges roots m
      else (scan edges [enter edges a] ⟨a :: m.entered, m.left⟩).bind (scanAll edges roots)

/-- The next target of the last visit is looked at, with the points of the trail marked as entered. -/
theorem scan_look (edges : List Edge) (a b : String) (ahead left : List String) (trail : List Visit) :
    scan edges (⟨a, b :: ahead⟩ :: trail) ⟨points (⟨a, b :: ahead⟩ :: trail), left⟩
      = if (a :: points trail).contains b then none
        else if left.contains b then
          scan edges (⟨a, ahead⟩ :: trail) ⟨points (⟨a, ahead⟩ :: trail), left⟩
        else
          scan edges (enter edges b :: ⟨a, ahead⟩ :: trail)
            ⟨points (enter edges b :: ⟨a, ahead⟩ :: trail), left⟩ := by
  rw [scan]
  rfl

/-- The points of the trail are those that are marked as entered, and while edges of other points only have
been taken out, both searches go the same way. -/
theorem scan_eq (same : ∀ b, b ∉ left → b ∉ points trail → next rest b = next edges b) :
    scan edges trail ⟨points trail, left⟩ = (search rest trail left).map (Marks.mk []) := by
  induction rest, trail, left using search.induct with
  | case1 rest left => rw [scan, search]; rfl
  | case2 rest a trail left ih =>
    rw [scan, search]
    show scan edges trail ⟨(a :: points trail).erase a, a :: left⟩ = _
    rw [List.erase_cons_head]
    refine ih fun b new off => same b (fun old => new (List.mem_cons_of_mem _ old)) fun on => ?_
    rcases List.mem_cons.1 on with first | later
    · exact new (first ▸ List.mem_cons_self)
    · exact off later
  | case3 rest a b ahead trail left back =>
    rw [search, if_pos back, scan_look, if_pos back]
    rfl
  | case4 rest a b ahead trail left off before ih =>
    rw [search, if_neg off, if_pos before, scan_look, if_neg off, if_pos before]
    exact ih same
  | case5 rest a b ahead trail left off new ih =>
    have newB : b ∉ left := by simpa using new
    have offB : b ∉ points (⟨a, b :: ahead⟩ :: trail) := by simpa [points] using off
    rw [search, if_neg off, if_neg new, scan_look, if_neg off, if_neg new, enter, ← same b newB offB]
    refine ih fun c newC offC => ?_
    rw [points, List.map_cons, List.mem_cons, not_or] at offC
    have other : c ≠ b := offC.1
    rw [next_others other]
    exact same c newC offC.2

theorem scanAll_eq (edges : List Edge) (roots left : List String) :
    scanAll edges roots ⟨[], left⟩ = (searchAll edges roots left).map (Marks.mk []) := by
  induction roots generalizing left with
  | nil => rfl
  | cons a roots ih =>
    rw [scanAll, searchAll]
    split
    · exact ih left
    · have begun : scan edges [enter edges a] ⟨[a], left⟩
          = (search (others edges a) [enter edges a] left).map (Marks.mk []) :=
        scan_eq fun b _ off => next_others fun same => off (same ▸ List.mem_cons_self)
      rw [begun]
      cases search (others edges a) [enter edges a] left with
      | none => rfl
      | some after => exact ih after

/-- A path of at least one edge leads from a point to itself. -/
def OnLoop (edges : List Edge) (a : String) : Prop := ∃ e ∈ edges, e.source = a ∧ Leads edges e.target a

theorem hasCycle_iff_onLoop : hasCycle edges = true ↔ ∃ a, OnLoop edges a := by
  rw [hasCycle_iff]
  constructor
  · rintro ⟨e, mem, path⟩
    exact ⟨e.source, e, mem, rfl, path⟩
  · rintro ⟨a, e, mem, rfl, path⟩
    exact ⟨e, mem, path⟩

theorem hasCycle_concat_iff {e : Edge} :
    hasCycle (edges ++ [e]) = true ↔ hasCycle edges = true ∨ createsCycle edges e.source e.target = true := by
  rw [createsCycle, hasPath_iff, ← not_iff_not, not_or, Bool.not_eq_true, Bool.not_eq_true,
    hasCycle_eq_false_iff, hasCycle_eq_false_iff]
  exact acyclic_concat_iff

end Paths

namespace Workflow

open Paths

/-- The points that are marked by a search from the first trigger on; none without a trigger. -/
def gathered (w : Workflow) : List String :=
  match w.trigger? with
  | some t => gather w.edges [t.id] []
  | none => []

/-- Whether the searches from the nodes on, and from the other sources of edges, come upon a loop. -/
def loops (w : Workflow) : Bool := (scanAll w.edges (w.nodeIds ++ w.edges.map (·.source)) {}).isNone

theorem mem_gathered_iff {w : Workflow} {id : String} : id ∈ w.gathered ↔ id ∈ w.reachable := by
  rw [mem_reachable_iff_leads, gathered]
  cases w.trigger? with
  | none => simp
  | some t => simp [mem_gather_iff (frontier_nil w.edges [t.id]), reached_singleton_iff]

theorem loops_eq_hasCycle (w : Workflow) : w.loops = w.hasCycle := by
  rw [loops, hasCycle]
  show (scanAll _ _ ⟨[], []⟩).isNone = _
  rw [scanAll_eq, Option.isNone_map]

/-- The searches are exact on every workflow, whatever its edges and identifiers.  A path is found exactly if
there is one; what is reached from the first trigger is exactly what a path leads to from there; a loop is
found exactly if a path of at least one edge leads from some point to itself.  With one edge more there is a
loop exactly if there was one or the edge closes one.  The searches that mark points come to the same. -/
theorem search_iff_leads (w : Workflow) :
    (∀ s t, hasPath w.edges s t = true ↔ Leads w.edges s t)
      ∧ (∀ id, id ∈ w.reachable ↔ ∃ t, w.trigger? = some t ∧ Leads w.edges t.id id)
      ∧ (w.hasCycle = true ↔ ∃ a, OnLoop w.edges a)
      ∧ (∀ e, (w.addEdge e).hasCycle = true
          ↔ w.hasCycle = true ∨ createsCycle w.edges e.source e.target = true)
      ∧ (∀ s t, seek w.edges t [s] [] = hasPath w.edges s t)
      ∧ (∀ id, id ∈ w.gathered ↔ id ∈ w.reachable)
      ∧ w.loops = w.hasCycle := by
  refine ⟨fun s t => hasPath_iff, fun id => mem_reachable_iff_leads, ?_, fun e => ?_,
    seek_eq_hasPath w.edges, fun id => mem_gathered_iff, w.loops_eq_hasCycle⟩
  · rw [hasCycle_eq]
    exact hasCycle_iff_onLoop
  · rw [hasCycle_eq, hasCycle_eq]
    exact hasCycle_concat_iff

end Workflow

end Journey
