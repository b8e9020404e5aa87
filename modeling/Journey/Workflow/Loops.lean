import Journey.Workflow.Paths

/-!
# Journey.Workflow.Loops -- looking for a loop in one pass

A workflow is searched for loops from its nodes on, in their order, and then from the other points
where edges begin.  The points that the search has entered and not yet left are its trail, and each of
them is kept with the targets of its edges that are still to be looked at.  An edge to a point of the
trail closes a loop, and the search is over.  An edge to a point that was left needs no second look.
When all targets of a point have been looked at, the point is left.

A point that is entered takes its edges out of those that are left to be looked at, so the search ends
on every graph.  What carries it is the order in which points are left: every edge leads from a point
to one that was left before (`LeftInOrder`), and the points of the trail lead to each other up to the
last one (`IsTrail`).  Main statement: a loop is found exactly when there is one, so that it does not
matter in which order the nodes are listed (`hasCycle_eq`).
-/

namespace Journey

set_option autoImplicit false

namespace Paths

/-- A point that was entered, with the targets of its edges that are still to be looked at. -/
structure Visit where
  point : String
  ahead : List String

/-- A point that is just entered. -/
def enter (edges : List Edge) (a : String) : Visit := ⟨a, next edges a⟩

/-- The points of a trail. -/
def points (trail : List Visit) : List String := trail.map (·.point)

/-- What is still to be done on a trail: every target that is ahead is looked at and may be entered, and
every point is left. -/
def work : List Visit → Nat
  | [] => 0
  | v :: trail => 2 * v.ahead.length + 1 + work trail

/-- The search from a trail on, the last visit first, with the points that were left, the last one
first; none if it comes upon a loop. -/
def search (edges : List Edge) : List Visit → List String → Option (List String)
  | [], left => some left
  | ⟨a, []⟩ :: trail, left => search edges trail (a :: left)
  | ⟨a, b :: ahead⟩ :: trail, left =>
      if (a :: points trail).contains b then none
      else if left.contains b then search edges (⟨a, ahead⟩ :: trail) left
      else search (others edges b) (enter edges b :: ⟨a, ahead⟩ :: trail) left
termination_by trail => 2 * edges.length + work trail
decreasing_by
  · simp only [work]
    omega
  · simp only [work, List.length_cons]
    omega
  · have := length_others_add_length_next edges b
    simp only [work, enter, List.length_cons]
    omega

/-- The searches from points on that were not left before. -/
def searchAll (edges : List Edge) : List String → List String → Option (List String)
  | [], left => some left
  | a :: roots, left =>
      if left.contains a then searchAll edges roots left
      else (search (others edges a) [enter edges a] left).bind (searchAll edges roots)

end Paths

/-- Whether a search from the nodes on, and from the other sources of edges, comes upon a loop. -/
def Workflow.hasCycle (w : Workflow) : Bool :=
  (Paths.searchAll w.edges (w.nodeIds ++ w.edges.map (·.source)) []).isNone

namespace Paths

variable {edges rest : List Edge} {left : List String} {trail : List Visit} {a b : String}

/-! ## Points in the order in which they are left -/

/-- Every edge from one of the points leads to one that was left before it. -/
def LeftInOrder (edges : List Edge) : List String → Prop
  | [] => True
  | a :: left =>
      a ∉ left ∧ (∀ e ∈ edges, e.source = a → e.target ∈ left) ∧ LeftInOrder edges left

/-- What a point leads to that was left was left as well. -/
theorem LeftInOrder.mem_of_leads (h : LeftInOrder edges left) (path : Leads edges a b)
    (start : a ∈ left) : b ∈ left := by
  have closed : ∀ left, LeftInOrder edges left → ∀ e ∈ edges, e.source ∈ left → e.target ∈ left := by
    intro left h
    induction left with
    | nil => simp
    | cons c left ih =>
      obtain ⟨-, own, earlier⟩ := h
      intro e mem source
      rcases List.mem_cons.1 source with same | before
      · exact List.mem_cons_of_mem _ (own e mem same)
      · exact List.mem_cons_of_mem _ (ih earlier e mem before)
  induction path with
  | here a => exact start
  | step mem _ ih => exact ih (closed left h _ mem start)

/-- No edge from a point that was left closes a loop. -/
theorem LeftInOrder.not_leads (h : LeftInOrder edges left) {e : Edge} (mem : e ∈ edges)
    (source : e.source ∈ left) : ¬ Leads edges e.target e.source := by
  induction left with
  | nil => cases source
  | cons a left ih =>
    obtain ⟨new, own, earlier⟩ := h
    rcases List.mem_cons.1 source with same | before
    · intro path
      exact new (same ▸ earlier.mem_of_leads path (own e mem same))
    · exact ih earlier before

/-! ## The trail -/

/-- The visits of a trail below a point, if there is one: each leads to the point above it, and has
looked at all its targets but those that are ahead. -/
def IsTrail (edges : List Edge) (left : List String) : Option String → List Visit → Prop
  | _, [] => True
  | above, v :: trail =>
      v.point ∉ left ∧ v.point ∉ points trail
        ∧ (∀ b, b ∈ v.ahead ∨ above = some b → ∃ e ∈ edges, e.source = v.point ∧ e.target = b)
        ∧ (∀ e ∈ edges, e.source = v.point →
            e.target ∈ v.ahead ∨ above = some e.target ∨ e.target ∈ left)
        ∧ IsTrail edges left (some v.point) trail

/-- Every point of a trail leads to where the point above it leads. -/
theorem IsTrail.leads (h : IsTrail edges left (some a) trail) (onward : Leads edges a b)
    {c : String} (mem : c ∈ points trail) : Leads edges c b := by
  induction trail generalizing a with
  | nil => cases mem
  | cons v trail ih =>
    obtain ⟨-, -, ahead, -, below⟩ := h
    obtain ⟨e, memE, source, target⟩ := ahead a (.inr rfl)
    have up : Leads edges v.point b := source ▸ .step memE (target ▸ onward)
    rcases List.mem_cons.1 mem with rfl | deeper
    · exact up
    · exact ih below up deeper

/-- A point that is left is no longer above the trail. -/
theorem IsTrail.leave (h : IsTrail edges left (some a) trail) (new : a ∉ points trail) :
    IsTrail edges (a :: left) none trail := by
  have grown : ∀ above (trail : List Visit), a ∉ points trail →
      IsTrail edges left above trail → IsTrail edges (a :: left) above trail := by
    intro above trail new h
    induction trail generalizing above with
    | nil => trivial
    | cons v trail ih =>
      rw [points, List.map_cons, List.mem_cons, not_or] at new
      obtain ⟨fresh, once, ahead, looked, below⟩ := h
      refine ⟨?_, once, ahead, fun e mem source => ?_, ih _ new.2 below⟩
      · rw [List.mem_cons, not_or]
        exact ⟨Ne.symm new.1, fresh⟩
      · exact (looked e mem source).imp_right (.imp_right (List.mem_cons_of_mem _))
  have above := grown _ trail new h
  cases trail with
  | nil => trivial
  | cons v trail =>
    obtain ⟨fresh, once, ahead, looked, below⟩ := above
    refine ⟨fresh, once, fun b there => ahead b (there.imp_right nofun), fun e mem source => ?_, below⟩
    rcases looked e mem source with there | same | before
    · exact .inl there
    · cases same
      exact .inr (.inr List.mem_cons_self)
    · exact .inr (.inr before)

/-- A target that is on the trail closes a loop. -/
theorem IsTrail.closes {ahead : List String} (h : IsTrail edges left none (⟨a, b :: ahead⟩ :: trail))
    (back : b ∈ a :: points trail) : ∃ e ∈ edges, Leads edges e.target e.source := by
  obtain ⟨-, -, forward, -, below⟩ := h
  obtain ⟨e, mem, source, target⟩ := forward b (.inl List.mem_cons_self)
  refine ⟨e, mem, ?_⟩
  rw [source, target]
  rcases List.mem_cons.1 back with rfl | deeper
  · exact .here b
  · exact below.leads (.here a) deeper

/-- A target that was left is passed by. -/
theorem IsTrail.pass {ahead : List String} (h : IsTrail edges left none (⟨a, b :: ahead⟩ :: trail))
    (before : b ∈ left) : IsTrail edges left none (⟨a, ahead⟩ :: trail) := by
  obtain ⟨fresh, once, forward, looked, below⟩ := h
  refine ⟨fresh, once, fun c there => ?_, fun e mem source => ?_, below⟩
  · exact forward c (there.imp_left (List.mem_cons_of_mem b))
  · rcases looked e mem source with there | above | there
    · rcases List.mem_cons.1 there with same | there
      · exact .inr (.inr (same ▸ before))
      · exact .inl there
    · cases above
    · exact .inr (.inr there)

/-- A target that is looked at next stands above the trail. -/
theorem IsTrail.climb {ahead : List String} (h : IsTrail edges left none (⟨a, b :: ahead⟩ :: trail)) :
    IsTrail edges left (some b) (⟨a, ahead⟩ :: trail) := by
  obtain ⟨fresh, once, forward, looked, below⟩ := h
  refine ⟨fresh, once, fun c there => ?_, fun e mem source => ?_, below⟩
  · rcases there with there | same
    · exact forward c (.inl (List.mem_cons_of_mem b there))
    · cases same
      exact forward b (.inl List.mem_cons_self)
  · rcases looked e mem source with there | above | there
    · rcases List.mem_cons.1 there with same | there
      · exact .inr (.inl (congrArg some same.symm))
      · exact .inl there
    · cases above
    · exact .inr (.inr there)

/-! ## The search -/

/-- The edges that are left to be looked at: all edges but those of points that were entered. -/
structure Remaining (edges rest : List Edge) (left : List String) (trail : List Visit) : Prop where
  subset : ∀ e ∈ rest, e ∈ edges
  unseen : ∀ e ∈ edges, e.source ∉ left → e.source ∉ points trail → e ∈ rest

/-- What a search comes to: a loop, or an order in which the points were left. -/
def Settles (edges : List Edge) (points : List String) : Option (List String) → Prop
  | none => ∃ e ∈ edges, Leads edges e.target e.source
  | some after => LeftInOrder edges after ∧ ∀ a ∈ points, a ∈ after

theorem Settles.mono {more fewer : List String} {result : Option (List String)}
    (h : Settles edges more result) (sub : ∀ a ∈ fewer, a ∈ more) : Settles edges fewer result := by
  cases result with
  | none => exact h
  | some after => exact ⟨h.1, fun a mem => h.2 a (sub a mem)⟩

/-- A point that was not left and is not on the trail is entered with all its targets ahead. -/
theorem Remaining.isTrail_enter (h : Remaining edges rest left trail) (new : b ∉ left)
    (off : b ∉ points trail) (below : IsTrail edges left (some b) trail) :
    IsTrail edges left none (enter rest b :: trail) := by
  refine ⟨new, off, fun c there => ?_, fun e mem source => ?_, below⟩
  · obtain ⟨e, mem, source, target⟩ := mem_next.1 (there.resolve_right nofun)
    exact ⟨e, h.subset e mem, source, target⟩
  · subst source
    exact .inl (mem_next.2 ⟨e, h.unseen e mem new off, rfl, rfl⟩)

theorem Remaining.enter (h : Remaining edges rest left trail) (b : String) :
    Remaining edges (others rest b) left (enter rest b :: trail) where
  subset e mem := h.subset e (mem_others.1 mem).1
  unseen e mem new off := by
    rw [points, List.map_cons, List.mem_cons, not_or] at off
    exact mem_others.2 ⟨h.unseen e mem new off.2, off.1⟩

/-- The edges of a point that is left are not left to be looked at. -/
theorem Remaining.leave (h : Remaining edges rest left (⟨a, []⟩ :: trail)) :
    Remaining edges rest (a :: left) trail where
  subset := h.subset
  unseen e mem new off := by
    rw [List.mem_cons, not_or] at new
    exact h.unseen e mem new.2 (by simpa [points, new.1] using off)

/-- A search from a trail on finds a loop, or leaves all points of the trail. -/
theorem settles_search (order : LeftInOrder edges left) (isTrail : IsTrail edges left none trail)
    (remaining : Remaining edges rest left trail) :
    Settles edges (left ++ points trail) (search rest trail left) := by
  induction rest, trail, left using search.induct with
  | case1 rest left =>
    rw [search]
    exact ⟨order, by simp [points]⟩
  | case2 rest a trail left ih =>
    -- all targets of the point have been looked at, so it is left
    obtain ⟨fresh, once, -, looked, below⟩ := isTrail
    have own : ∀ e ∈ edges, e.source = a → e.target ∈ left := fun e mem source =>
      ((looked e mem source).resolve_left List.not_mem_nil).resolve_left nofun
    rw [search]
    refine (ih ⟨fresh, own, order⟩ (below.leave once) remaining.leave).mono fun c mem => ?_
    simpa [points, or_left_comm] using mem
  | case3 rest a b ahead trail left back =>
    rw [search, if_pos back]
    exact isTrail.closes (List.contains_iff_mem.1 back)
  | case4 rest a b ahead trail left off before ih =>
    rw [search, if_neg off, if_pos before]
    exact ih order (isTrail.pass (List.contains_iff_mem.1 before)) ⟨remaining.subset, remaining.unseen⟩
  | case5 rest a b ahead trail left off new ih =>
    have newB : b ∉ left := by simpa using new
    have offB : b ∉ points (⟨a, ahead⟩ :: trail) := by simpa [points] using off
    have onward : Remaining edges rest left (⟨a, ahead⟩ :: trail) :=
      ⟨remaining.subset, remaining.unseen⟩
    rw [search, if_neg off, if_neg new]
    refine (ih order (onward.isTrail_enter newB offB isTrail.climb) (onward.enter b)).mono fun c mem => ?_
    simp only [points, List.map_cons, List.mem_append, List.mem_cons] at mem ⊢
    exact mem.imp_right .inr

/-- The searches from a list of points on find a loop, or leave all of them. -/
theorem settles_searchAll (order : LeftInOrder edges left) (roots : List String) :
    Settles edges (left ++ roots) (searchAll edges roots left) := by
  induction roots generalizing left with
  | nil =>
    rw [searchAll]
    exact ⟨order, by simp⟩
  | cons a roots ih =>
    rw [searchAll]
    split
    · next before =>
      refine (ih order).mono fun c mem => ?_
      rcases List.mem_append.1 mem with old | new
      · exact List.mem_append_left _ old
      · rcases List.mem_cons.1 new with rfl | later
        · exact List.mem_append_left _ (List.contains_iff_mem.1 before)
        · exact List.mem_append_right _ later
    · next new =>
      have remaining : Remaining edges edges left [] := ⟨fun _ mem => mem, fun _ mem _ _ => mem⟩
      have one := settles_search order
        (remaining.isTrail_enter (by simpa using new) nofun trivial) (remaining.enter a)
      cases found : search (others edges a) [enter edges a] left with
      | none =>
        rw [found] at one
        exact one
      | some after =>
        rw [found] at one
        obtain ⟨order', reached⟩ := one
        refine (ih order').mono fun c mem => ?_
        rw [List.append_cons] at mem
        rcases List.mem_append.1 mem with earlier | later
        · exact List.mem_append_left _ (reached c earlier)
        · exact List.mem_append_right _ later

end Paths

/-- The search finds a loop exactly if some path of at least one edge ends where it began. -/
theorem Workflow.hasCycle_eq (w : Workflow) : w.hasCycle = Paths.hasCycle w.edges := by
  have settles : Paths.Settles w.edges ([] ++ (w.nodeIds ++ w.edges.map (·.source)))
      (Paths.searchAll w.edges (w.nodeIds ++ w.edges.map (·.source)) []) :=
    Paths.settles_searchAll (show Paths.LeftInOrder w.edges [] from trivial) _
  rw [hasCycle, Bool.eq_iff_iff, Paths.hasCycle_iff]
  cases found : Paths.searchAll w.edges (w.nodeIds ++ w.edges.map (·.source)) [] with
  | none =>
    rw [found] at settles
    exact iff_of_true rfl settles
  | some after =>
    rw [found] at settles
    obtain ⟨order, all⟩ := settles
    refine iff_of_false nofun ?_
    rintro ⟨e, mem, path⟩
    exact order.not_leads mem (all _ (by simpa using .inr ⟨e, mem, rfl⟩)) path

end Journey
