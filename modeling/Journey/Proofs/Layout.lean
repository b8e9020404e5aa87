import Journey.Proofs.Graph.Paths
import Journey.Proofs.Layout.Sorted

/-!
# Journey.Proofs.Layout -- rows are distances, and lanes follow edges

A layout spreads over the edges breadth first, and of the spots of a point the first counts
(`firstSpot?`).  Whatever is in the queue, the spots that are reached are those in the queue and those
next to the spots that count (`mem_spread_iff`).  The rows in the queue never differ by more than one
and never fall (`Level`), so neither do the rows of the spots that are reached (`rows_spread`), and no
later spot of a point is in a higher row than the one that counts.

Main statement: a node that a path from the trigger leads to stands in the row of its distance from the
trigger (`Paths.Distance`) and in a lane that some edge on a shortest path gives (`LanesFollow`), and
the others stand side by side in the top row (`layout_eq_distances`).  The edges that leave a node on the way
are ordered by their handles, so there is a layout exactly if those handles are short
(`succeed_layoutConversions_iff`).  Both together: `tryLayout_eq_distances`.
-/

namespace Journey

set_option autoImplicit false

/-! ## Distances -/

namespace Paths

variable {edges : List Edge} {a b c : String} {d n : Nat}

/-- A path with a number of edges. -/
inductive Walk (edges : List Edge) (a : String) : Nat → String → Prop where
  | here : Walk edges a 0 a
  | step {n : Nat} {e : Edge} : Walk edges a n e.source → e ∈ edges → Walk edges a (n + 1) e.target

@[simp] theorem walk_zero_iff : Walk edges a 0 b ↔ b = a := by
  constructor
  · intro walk
    cases walk with
    | here => rfl
  · rintro rfl
    exact .here

theorem walk_succ_iff : Walk edges a (n + 1) b ↔ ∃ e ∈ edges, e.target = b ∧ Walk edges a n e.source := by
  constructor
  · intro walk
    cases walk with
    | step walk mem => exact ⟨_, mem, rfl, walk⟩
  · rintro ⟨e, mem, rfl, walk⟩
    exact .step walk mem

/-- The number of edges on the shortest paths from one point to another. -/
structure Distance (edges : List Edge) (a b : String) (d : Nat) : Prop where
  path : Walk edges a d b
  least : ∀ n, Walk edges a n b → d ≤ n

theorem Distance.unique (h : Distance edges a b d) (k : Distance edges a b n) : d = n :=
  Nat.le_antisymm (h.least n k.path) (k.least d h.path)

theorem Walk.onward (h : Walk edges a n b) (path : Leads edges b c) : ∃ m, Walk edges a m c := by
  induction path generalizing n with
  | here => exact ⟨n, h⟩
  | step mem _ ih => exact ih (h.step mem)

theorem Walk.leads (h : Walk edges a n b) : Leads edges a b := by
  induction h with
  | here => exact .here a
  | step _ mem ih => exact ih.trans (.step mem (.here _))

theorem leads_iff_walk : Leads edges a b ↔ ∃ n, Walk edges a n b :=
  ⟨fun path => Walk.here.onward path, fun ⟨_, walk⟩ => walk.leads⟩

end Paths

namespace Layout

open Paths (Walk Distance)

variable {edges : List Edge} {queue : List Spot} {s x : Spot}

/-! ## Next spots -/

theorem mem_spotsAfter_iff {total position : Nat} {es : List Edge} :
    x ∈ spotsAfter s total position es ↔
      ∃ i e, es[i]? = some e
        ∧ x = ⟨e.target, s.row + 1, s.lane + laneOffset e.sourceHandle (position + i) total⟩ := by
  induction es generalizing position with
  | nil => simp [spotsAfter]
  | cons e es ih =>
    rw [spotsAfter, List.mem_cons, ih]
    constructor
    · rintro (rfl | ⟨i, f, found, rfl⟩)
      · exact ⟨0, e, rfl, rfl⟩
      · exact ⟨i + 1, f, found, by rw [Nat.add_assoc, Nat.add_comm 1 i]⟩
    · rintro ⟨i, f, found, rfl⟩
      cases i with
      | zero => cases found; exact .inl rfl
      | succ i => exact .inr ⟨i, f, found, by rw [Nat.add_assoc, Nat.add_comm 1 i]⟩

/-- The spots next to a spot are one row below it, where an edge from there leads. -/
theorem mem_nextSpots_iff :
    x ∈ nextSpots edges s ↔
      ∃ i e, (sortByBranch (Workflow.edgesFrom edges s.id))[i]? = some e
        ∧ x = ⟨e.target, s.row + 1, s.lane
            + laneOffset e.sourceHandle i (Workflow.edgesFrom edges s.id).length⟩ := by
  rw [nextSpots, mem_spotsAfter_iff, (sortByBranch_perm _).length_eq]
  simp only [Nat.zero_add]

theorem mem_of_getElem?_sortByBranch {i : Nat} {e : Edge} {id : String}
    (found : (sortByBranch (Workflow.edgesFrom edges id))[i]? = some e) : e ∈ edges ∧ e.source = id := by
  have mem := (sortByBranch_perm _).mem_iff.1 (List.mem_of_getElem? found)
  simpa [Workflow.edgesFrom] using mem

theorem row_of_mem_nextSpots (mem : x ∈ nextSpots edges s) : x.row = s.row + 1 := by
  obtain ⟨i, e, -, rfl⟩ := mem_nextSpots_iff.1 mem
  rfl

/-- Without the edges that leave a point there is nothing next to it. -/
theorem nextSpots_others_self {id : String} (same : s.id = id) :
    nextSpots (Paths.others edges id) s = [] := by
  have noEdges : Workflow.edgesFrom (Paths.others edges id) s.id = [] := by
    simp [Workflow.edgesFrom, Paths.others, same]
  rw [nextSpots, noEdges]
  simp [sortByBranch, spotsAfter]

theorem nextSpots_others {id : String} (other : s.id ≠ id) :
    nextSpots (Paths.others edges id) s = nextSpots edges s := by
  have all : Workflow.edgesFrom (Paths.others edges id) s.id = Workflow.edgesFrom edges s.id := by
    rw [Workflow.edgesFrom, Workflow.edgesFrom, Paths.others, List.filter_filter]
    refine List.filter_congr fun e _ => ?_
    by_cases leaves : e.source = s.id <;> simp [leaves, other]
  rw [nextSpots, nextSpots, all]

/-! ## The spots that are reached -/

/-- The spot of a point that counts. -/
def firstSpot? (spots : List Spot) (id : String) : Option Spot := spots.find? fun s => s.id == id

theorem firstSpot?_eq_some {spots : List Spot} {id : String} (found : firstSpot? spots id = some s) :
    s ∈ spots ∧ s.id = id :=
  ⟨List.mem_of_find?_eq_some found, by simpa using List.find?_some found⟩

theorem firstSpot?_cons_of_eq {spots : List Spot} {id : String} (same : s.id = id) :
    firstSpot? (s :: spots) id = some s :=
  List.find?_cons_of_pos (by simpa using same)

theorem firstSpot?_cons_of_ne {spots : List Spot} {id : String} (other : s.id ≠ id) :
    firstSpot? (s :: spots) id = firstSpot? spots id :=
  List.find?_cons_of_neg (by simpa using other)

theorem exists_firstSpot? {spots : List Spot} (mem : x ∈ spots) :
    ∃ s, firstSpot? spots x.id = some s := by
  rw [← Option.isSome_iff_exists, firstSpot?, List.find?_isSome]
  exact ⟨x, mem, by simp⟩

/-- The spots that are reached are those in the queue, and those next to spots that count. -/
theorem mem_spread_iff :
    x ∈ spread edges queue ↔
      x ∈ queue ∨ ∃ s, firstSpot? (spread edges queue) s.id = some s ∧ x ∈ nextSpots edges s := by
  induction edges, queue using spread.induct with
  | case1 edges => simp [spread, firstSpot?]
  | case2 edges q queue ih =>
    rw [spread, List.mem_cons, ih, List.mem_cons, List.mem_append]
    constructor
    · rintro (rfl | (waiting | next) | ⟨s, counts, next⟩)
      · exact .inl (.inl rfl)
      · exact .inl (.inr waiting)
      · exact .inr ⟨q, List.find?_cons_of_pos (by simp), next⟩
      · have other : s.id ≠ q.id := by
          intro same
          rw [nextSpots_others_self same] at next
          cases next
        rw [nextSpots_others other] at next
        exact .inr ⟨s, (firstSpot?_cons_of_ne other.symm).trans counts, next⟩
    · rintro ((rfl | waiting) | ⟨s, counts, next⟩)
      · exact .inl rfl
      · exact .inr (.inl (.inl waiting))
      · by_cases same : q.id = s.id
        · cases (firstSpot?_cons_of_eq same).symm.trans counts
          exact .inr (.inl (.inr next))
        · rw [firstSpot?_cons_of_ne same] at counts
          exact .inr (.inr ⟨s, counts, (nextSpots_others (Ne.symm same)).symm ▸ next⟩)

/-! ## Rows -/

/-- The rows of spots never fall, and differ by at most one. -/
def Level (queue : List Spot) : Prop :=
  queue.Pairwise fun s x => s.row ≤ x.row ∧ x.row ≤ s.row + 1

theorem Level.advance (h : Level (s :: queue)) : Level (queue ++ nextSpots edges s) := by
  obtain ⟨first, rest⟩ := List.pairwise_cons.1 h
  refine List.pairwise_append.2 ⟨rest, ?_, fun x mem y next => ?_⟩
  · refine List.pairwise_of_forall_mem_list fun x mem y next => ?_
    rw [row_of_mem_nextSpots mem, row_of_mem_nextSpots next]
    omega
  · have := first x mem
    rw [row_of_mem_nextSpots next]
    omega

theorem le_row_of_mem_spread {k : Nat} (low : ∀ s ∈ queue, k ≤ s.row) :
    ∀ x ∈ spread edges queue, k ≤ x.row := by
  induction edges, queue using spread.induct with
  | case1 edges => simp [spread]
  | case2 edges q queue ih =>
    obtain ⟨first, rest⟩ := List.forall_mem_cons.1 low
    rw [spread]
    refine List.forall_mem_cons.2 ⟨first, ih fun s mem => ?_⟩
    rcases List.mem_append.1 mem with waiting | next
    · exact rest s waiting
    · rw [row_of_mem_nextSpots next]
      omega

/-- From a queue whose rows are level on, rows never fall. -/
theorem rows_spread (h : Level queue) : (spread edges queue).Pairwise fun s x => s.row ≤ x.row := by
  induction edges, queue using spread.induct with
  | case1 edges => simp [spread]
  | case2 edges q queue ih =>
    rw [spread]
    refine List.pairwise_cons.2 ⟨le_row_of_mem_spread fun s mem => ?_, ih h.advance⟩
    rcases List.mem_append.1 mem with waiting | next
    · exact ((List.pairwise_cons.1 h).1 s waiting).1
    · rw [row_of_mem_nextSpots next]
      omega

theorem row_firstSpot?_le {spots : List Spot} (sorted : spots.Pairwise fun s x => s.row ≤ x.row)
    (counts : firstSpot? spots x.id = some s) (mem : x ∈ spots) : s.row ≤ x.row := by
  induction spots with
  | nil => cases mem
  | cons y spots ih =>
    obtain ⟨first, rest⟩ := List.pairwise_cons.1 sorted
    by_cases same : y.id = x.id
    · cases (firstSpot?_cons_of_eq same).symm.trans counts
      rcases List.mem_cons.1 mem with rfl | later
      · exact Nat.le_refl _
      · exact first x later
    · rw [firstSpot?_cons_of_ne same] at counts
      rcases List.mem_cons.1 mem with rfl | later
      · exact absurd rfl same
      · exact ih rest counts later

/-! ## Rows are distances -/

section FromStart

variable {start id : String} {d : Nat}

/-- The spots that are reached from a point. -/
def spotsFrom (edges : List Edge) (start : String) : List Spot := spread edges [⟨start, 0, 0⟩]

theorem mem_spotsFrom_iff :
    x ∈ spotsFrom edges start ↔
      x = ⟨start, 0, 0⟩
        ∨ ∃ s, firstSpot? (spotsFrom edges start) s.id = some s ∧ x ∈ nextSpots edges s := by
  rw [spotsFrom, mem_spread_iff, List.mem_singleton]

theorem firstSpot?_start : firstSpot? (spotsFrom edges start) start = some ⟨start, 0, 0⟩ := by
  rw [spotsFrom, spread]
  exact firstSpot?_cons_of_eq rfl

/-- A spot that is reached is as far down as some path is long. -/
theorem walk_of_mem_spotsFrom (mem : x ∈ spotsFrom edges start) : Walk edges start x.row x.id := by
  generalize row : x.row = n
  induction n generalizing x with
  | zero =>
    rcases mem_spotsFrom_iff.1 mem with rfl | ⟨s, -, next⟩
    · exact .here
    · rw [row_of_mem_nextSpots next] at row
      cases row
  | succ n ih =>
    rcases mem_spotsFrom_iff.1 mem with rfl | ⟨s, counts, next⟩
    · cases row
    · obtain ⟨i, e, found, rfl⟩ := mem_nextSpots_iff.1 next
      obtain ⟨memE, source⟩ := mem_of_getElem?_sortByBranch found
      have walk := ih (firstSpot?_eq_some counts).1 (Nat.succ.inj row)
      exact .step (source ▸ walk) memE

/-- The end of a path has a spot, and the one that counts is no further down than the path is long. -/
theorem exists_firstSpot?_of_walk (h : Walk edges start d id) :
    ∃ s, firstSpot? (spotsFrom edges start) id = some s ∧ s.row ≤ d := by
  induction h with
  | here => exact ⟨_, firstSpot?_start, Nat.le_refl 0⟩
  | @step d e _ mem ih =>
    obtain ⟨s, counts, le⟩ := ih
    obtain ⟨-, name⟩ := firstSpot?_eq_some counts
    obtain ⟨i, found⟩ : ∃ i, (sortByBranch (Workflow.edgesFrom edges s.id))[i]? = some e := by
      refine List.mem_iff_getElem?.1 ((sortByBranch_perm _).mem_iff.2 ?_)
      simp [Workflow.edgesFrom, mem, name]
    have reached := mem_spotsFrom_iff.2 (.inr ⟨s, name ▸ counts, mem_nextSpots_iff.2 ⟨i, e, found, rfl⟩⟩)
    obtain ⟨x, first⟩ := exists_firstSpot? reached
    have sorted : (spotsFrom edges start).Pairwise fun s x => s.row ≤ x.row :=
      rows_spread (List.pairwise_singleton _ _)
    have row := row_firstSpot?_le sorted first reached
    exact ⟨x, first, by simp only at row; omega⟩

/-- The distance of a point is the row of its spot that counts. -/
theorem distance_iff :
    Distance edges start id d ↔ ∃ s, firstSpot? (spotsFrom edges start) id = some s ∧ s.row = d := by
  constructor
  · intro h
    obtain ⟨s, counts, le⟩ := exists_firstSpot?_of_walk h.path
    obtain ⟨mem, rfl⟩ := firstSpot?_eq_some counts
    exact ⟨s, counts, Nat.le_antisymm le (h.least _ (walk_of_mem_spotsFrom mem))⟩
  · rintro ⟨s, counts, rfl⟩
    obtain ⟨mem, rfl⟩ := firstSpot?_eq_some counts
    refine ⟨walk_of_mem_spotsFrom mem, fun n walk => ?_⟩
    obtain ⟨x, first, le⟩ := exists_firstSpot?_of_walk walk
    cases first.symm.trans counts
    exact le

theorem firstSpot?_eq_none_iff : firstSpot? (spotsFrom edges start) id = none ↔ ¬ Paths.Leads edges start id := by
  rw [Paths.leads_iff_walk]
  constructor
  · rintro unreached ⟨n, walk⟩
    obtain ⟨s, counts, -⟩ := exists_firstSpot?_of_walk walk
    cases unreached.symm.trans counts
  · intro apart
    cases counts : firstSpot? (spotsFrom edges start) id with
    | none => rfl
    | some s =>
      obtain ⟨mem, rfl⟩ := firstSpot?_eq_some counts
      exact absurd ⟨_, walk_of_mem_spotsFrom mem⟩ apart

/-! ## Lanes follow edges -/

/-- Lanes that begin in the middle, and where each other point has the lane of a point that is nearer by
one, shifted as the branch says that leads from there. -/
structure LanesFollow (edges : List Edge) (start : String) (lane : String → Int) : Prop where
  middle : lane start = 0
  onward : ∀ id d, Distance edges start id (d + 1) →
    ∃ (e : Edge) (i : Nat), e.target = id ∧ Distance edges start e.source d
      ∧ (sortByBranch (Workflow.edgesFrom edges e.source))[i]? = some e
      ∧ lane id = lane e.source
          + laneOffset e.sourceHandle i (Workflow.edgesFrom edges e.source).length

/-- The lane of the spot that counts. -/
def laneOf (spots : List Spot) (id : String) : Int := ((firstSpot? spots id).map (·.lane)).getD 0

theorem laneOf_eq {spots : List Spot} (counts : firstSpot? spots id = some s) : laneOf spots id = s.lane := by
  rw [laneOf, counts]
  rfl

theorem lanesFollow_laneOf : LanesFollow edges start (laneOf (spotsFrom edges start)) where
  middle := laneOf_eq firstSpot?_start
  onward id d h := by
    obtain ⟨x, counts, row⟩ := distance_iff.1 h
    obtain ⟨mem, rfl⟩ := firstSpot?_eq_some counts
    rcases mem_spotsFrom_iff.1 mem with rfl | ⟨s, before, next⟩
    · cases row
    · obtain ⟨i, e, found, rfl⟩ := mem_nextSpots_iff.1 next
      obtain ⟨-, source⟩ := mem_of_getElem?_sortByBranch found
      refine ⟨e, i, rfl, ?_, by rw [source]; exact found, ?_⟩
      · rw [source]
        exact distance_iff.2 ⟨s, before, Nat.succ.inj row⟩
      · rw [laneOf_eq counts, source, laneOf_eq before]

/-- The points that are reached are those that a path from the start leads to. -/
theorem exists_mem_spotsFrom_iff : (∃ s ∈ spotsFrom edges start, s.id = id) ↔ Paths.Leads edges start id := by
  rw [Paths.leads_iff_walk]
  constructor
  · rintro ⟨s, mem, rfl⟩
    exact ⟨s.row, walk_of_mem_spotsFrom mem⟩
  · rintro ⟨d, walk⟩
    obtain ⟨s, counts, -⟩ := exists_firstSpot?_of_walk walk
    exact ⟨s, firstSpot?_eq_some counts⟩

end FromStart

/-! ## Nodes on their spots -/

/-- Each node stands on its spot, or in the top row after those before it that have none. -/
theorem getElem?_onSpots (dx dy : Float) (spots : List Spot) (aside i : Nat) (ns : List Node) :
    (onSpots dx dy spots aside ns)[i]? = ns[i]?.map fun n =>
      { n with
        position := match firstSpot? spots n.id with
          | some s => place dx dy s.lane s.row
          | none =>
              let before := (ns.take i).countP fun m => (firstSpot? spots m.id).isNone
              { x := baseX + Float.ofNat (aside + before + 1) * dx, y := baseY } } := by
  induction ns generalizing aside i with
  | nil => rfl
  | cons n ns ih =>
    change (match firstSpot? spots n.id with
      | some s => { n with position := place dx dy s.lane s.row } :: onSpots dx dy spots aside ns
      | none => { n with position := { x := baseX + Float.ofNat (aside + 1) * dx, y := baseY } }
          :: onSpots dx dy spots (aside + 1) ns)[i]? = _
    cases spot : firstSpot? spots n.id with
    | some s =>
      cases i with
      | zero => simp [spot]
      | succ i => simp [ih, spot]
    | none =>
      cases i with
      | zero => simp [spot]
      | succ i => simp [ih, spot, Nat.add_assoc, Nat.add_comm 1]

end Layout

namespace Workflow

open Paths (Leads Distance)
open Layout (LanesFollow place baseX baseY)

/-- From a trigger, the layout keeps the nodes in their order and all but their places.  A node that a path
from the trigger leads to stands in the row of its distance, and in lanes that follow edges; the others
stand side by side in the top row. -/
theorem layout_eq_distances (w : Workflow) (t : Node) (start : w.trigger? = some t) (dx dy : Float)
    (wide : (dx == 0.0) = false) (high : (dy == 0.0) = false) :
    ∃ lane, LanesFollow w.edges t.id lane
      ∧ (w.layout dx dy).length = w.nodes.length
      ∧ ∀ i n, w.nodes[i]? = some n →
        (Leads w.edges t.id n.id → ∃ d, Distance w.edges t.id n.id d
          ∧ (w.layout dx dy)[i]? = some { n with position := place dx dy (lane n.id) d })
        ∧ (¬ Leads w.edges t.id n.id →
            let before := (w.nodes.take i).countP fun m => !Paths.hasPath w.edges t.id m.id
            (w.layout dx dy)[i]?
              = some { n with
                  position := { x := baseX + Float.ofNat (before + 1) * dx, y := baseY } }) := by
  have laid : w.layout dx dy = Layout.onSpots dx dy (Layout.spotsFrom w.edges t.id) 0 w.nodes := by
    simp [layout, start, spacingOr, wide, high, Layout.spotsFrom]
  refine ⟨Layout.laneOf (Layout.spotsFrom w.edges t.id), Layout.lanesFollow_laneOf, ?_, fun i n listed => ?_⟩
  · simpa using congrArg List.length (map_id_layout w dx dy)
  · have spot := Layout.getElem?_onSpots dx dy (Layout.spotsFrom w.edges t.id) 0 i w.nodes
    rw [← laid, listed, Option.map_some] at spot
    refine ⟨fun path => ?_, fun apart => ?_⟩
    · obtain ⟨m, walk⟩ := Paths.leads_iff_walk.1 path
      obtain ⟨s, counts, -⟩ := Layout.exists_firstSpot?_of_walk walk
      refine ⟨s.row, Layout.distance_iff.2 ⟨s, counts, rfl⟩, ?_⟩
      rw [spot, Layout.laneOf_eq counts, counts]
    · have unspotted (m : Node) : (Layout.firstSpot? (Layout.spotsFrom w.edges t.id) m.id).isNone
          = !Paths.hasPath w.edges t.id m.id := by
        rw [Bool.eq_iff_iff, Option.isNone_iff_eq_none, Layout.firstSpot?_eq_none_iff, ← Paths.hasPath_iff]
        simp
      simp only [Layout.firstSpot?_eq_none_iff.2 apart, unspotted, Nat.zero_add] at spot
      exact spot

/-- From a trigger, there is a layout exactly if the edges that leave a node on the way are on short handles. -/
theorem succeed_layoutConversions_iff {w : Workflow} {t : Node} (start : w.trigger? = some t) :
    Conversion.Succeed w.layoutConversions ↔
      ∀ e ∈ w.edges, Leads w.edges t.id e.source → Handle.Short e.door := by
  have leaving (id : String) (p : Edge → Prop) :
      (∀ e ∈ edgesFrom w.edges id, p e) ↔ ∀ e ∈ w.edges, e.source = id → p e := by
    simp [edgesFrom]
  rw [layoutConversions, start]
  simp only [Conversion.succeed_flatMap, Layout.succeed_rankConversions_iff, leaving,
    ← Layout.exists_mem_spotsFrom_iff, Layout.spotsFrom]
  constructor
  · rintro short e mem ⟨s, reached, leaves⟩
    exact short s reached e mem leaves.symm
  · intro short s reached e mem leaves
    exact short e mem ⟨s, reached, leaves.symm⟩

/-- From a trigger, there is a layout exactly if the edges that leave a node on the way are on short handles.  It
keeps the nodes in their order and all but their places.  A node that a path from the trigger leads to stands in
the row of its distance, and in lanes that follow edges; the others stand side by side in the top row. -/
theorem tryLayout_eq_distances (w : Workflow) (t : Node) (start : w.trigger? = some t) (dx dy : Float)
    (wide : (dx == 0.0) = false) (high : (dy == 0.0) = false) :
    ((∃ ns, w.tryLayout dx dy = .ok ns)
        ↔ ∀ e ∈ w.edges, Leads w.edges t.id e.source → Handle.Short e.door)
      ∧ ∀ ns, w.tryLayout dx dy = .ok ns →
          ∃ lane, LanesFollow w.edges t.id lane
            ∧ ns.length = w.nodes.length
            ∧ ∀ i n, w.nodes[i]? = some n →
              (Leads w.edges t.id n.id → ∃ d, Distance w.edges t.id n.id d
                ∧ ns[i]? = some { n with position := place dx dy (lane n.id) d })
              ∧ (¬ Leads w.edges t.id n.id →
                  let before := (w.nodes.take i).countP fun m => !Paths.hasPath w.edges t.id m.id
                  ns[i]? = some { n with
                    position := { x := baseX + Float.ofNat (before + 1) * dx, y := baseY } }) := by
  refine ⟨Conversion.exists_after_eq_ok_iff.trans (succeed_layoutConversions_iff start), fun ns laid => ?_⟩
  obtain ⟨-, rfl⟩ := Conversion.after_eq_ok_iff.1 laid
  exact layout_eq_distances w t start dx dy wide high

/-- Two branches that meet, an edge that is there twice, one that leads back, one that leads to no node and
one from there, and two nodes aside. -/
def entangled : Workflow :=
  { id := "w"
    nodes := [{ id := "a", config := .wait {} }, { id := "t", config := .trigger {} },
      { id := "c", config := .condition {} }, { id := "b", config := .sendEmail {} },
      { id := "x", config := .exit {} }, { id := "z", config := .exit {} }]
    edges := [{ id := "e1", source := "t", target := "c" },
      { id := "e2", source := "c", target := "b", sourceHandle := some "else" },
      { id := "e3", source := "c", target := "b", sourceHandle := some "else" },
      { id := "e4", source := "c", target := "x", sourceHandle := some "if" },
      { id := "e5", source := "b", target := "x" }, { id := "e6", source := "b", target := "c" },
      { id := "e7", source := "b", target := "gone" }, { id := "e8", source := "gone", target := "b" },
      { id := "e9", source := "a", target := "x" }] }

theorem tryLayout_eq_distances_entangled :
    entangled.trigger? = some { id := "t", config := .trigger {} }
      ∧ ∃ ns lane, entangled.tryLayout 100.0 50.0 = .ok ns
        ∧ LanesFollow entangled.edges "t" lane ∧ Distance entangled.edges "t" "x" 2
        ∧ ns[4]? = some { id := "x", config := .exit {}, position := place 100.0 50.0 (lane "x") 2 }
        ∧ ns[5]? = some { id := "z", config := .exit {}
                          position := { x := baseX + Float.ofNat 2 * 100.0, y := baseY } } := by
  obtain ⟨lays, places⟩ :=
    tryLayout_eq_distances entangled { id := "t", config := .trigger {} } rfl 100.0 50.0 (by decide) (by decide)
  have short : ∀ e ∈ entangled.edges, Handle.Short e.door := by decide +kernel
  obtain ⟨ns, laid⟩ := lays.2 fun e mem _ => short e mem
  obtain ⟨lane, follow, -, placed⟩ := places ns laid
  have far : Distance entangled.edges "t" "x" 2 := by
    refine ⟨by simp [Paths.walk_succ_iff, entangled], fun n walk => ?_⟩
    match n with
    | 0 => simp at walk
    | 1 => simp [Paths.walk_succ_iff, entangled] at walk
    | n + 2 => omega
  obtain ⟨d, same, exit⟩ := (placed 4 _ rfl).1 (Paths.hasPath_iff.1 (by decide +kernel))
  obtain rfl := same.unique far
  have aside := (placed 5 _ rfl).2 fun path => absurd (Paths.hasPath_iff.2 path) (by decide +kernel)
  have before : ((entangled.nodes.take 5).countP fun m => !Paths.hasPath entangled.edges "t" m.id) = 1 := by
    decide +kernel
  simp only [before] at aside
  exact ⟨rfl, ns, lane, laid, follow, far, exit, aside⟩

/-- A trigger and an exit, and an edge between them on a handle that cannot be read. -/
def outOfReach : Workflow :=
  { id := "w"
    nodes := [{ id := "t", config := .trigger {} }, { id := "x", config := .exit {} }]
    edges := [{ id := "e", source := "t", target := "x", sourceHandle := some Handle.overlong }] }

/-- Such a workflow has a trigger and no layout. -/
theorem not_tryLayout_outOfReach :
    outOfReach.trigger? = some { id := "t", config := .trigger {} }
      ∧ ¬ ∃ ns, outOfReach.tryLayout = .ok ns := by
  have start : outOfReach.trigger? = some { id := "t", config := .trigger {} } := rfl
  refine ⟨start, ?_⟩
  rintro ⟨ns, laid⟩
  have short := (succeed_layoutConversions_iff start).1 (Conversion.exists_after_eq_ok_iff.1 ⟨ns, laid⟩)
  exact Handle.not_short_overlong (short _ List.mem_cons_self (.here _))

end Workflow

end Journey
