import Journey.Layout
import Journey.Proofs.Condition.Legible
import Mathlib.Data.List.Pairwise

/-!
# Journey.Proofs.Layout.Sorted -- edges in the order of their branches

The branches of a node have an order of their own (`Standing.UpTo`): first branches, else-if branches by
their numbers, last branches, and edges on any other handle or on none.  Sorting compares ranks instead,
which give the last branches and those other edges a fixed place among the numbers.  So an else-if branch
whose number is too high is put behind edges that belong after it, and at the number where the ranks are
equal it stays behind those that stood before it (`Overtaken`).

This is all that can go wrong where edges are sorted at all, which they are exactly if the number of every
handle can be read (`succeed_rankConversions_iff`).  Sorting moves edges and never changes the order of those with
the same standing, and the edges come in the order of their branches exactly if none is overtaken
(`ordered_trySort_iff`).  A last branch that overtakes an else-if branch and a number that is too long are seen
in `not_ordered_trySort`.
-/

namespace Journey.Layout

set_option autoImplicit false

/-! ## The order of branches -/

/-- Where an edge belongs among the branches of its node. -/
inductive Standing where
  | first
  | elseIf (number : Nat)
  | last
  | plain
  deriving DecidableEq

namespace Standing

/-- The standing of an edge on a handle. -/
def ofHandle : Option String → Standing
  | none => .plain
  | some h =>
      if leftHandles.contains h then .first
      else if rightHandles.contains h then .last
      else ((Handle.elseIf? h).map elseIf).getD .plain

/-- The first one does not belong after the second. -/
def UpTo : Standing → Standing → Prop
  | .first, _ => True
  | .elseIf m, .elseIf n => m ≤ n
  | .elseIf _, .last => True
  | .last, .last => True
  | _, .plain => True
  | _, _ => False

instance (s t : Standing) : Decidable (s.UpTo t) := by
  unfold UpTo
  split <;> infer_instance

/-- The rank of a standing; those that follow the else-if branches have a place among their numbers. -/
def rank : Standing → Nat
  | .first => 1
  | .elseIf n => 10 + n
  | .last => 90
  | .plain => 100

/-- The number of an else-if branch that has the same rank. -/
def limit? : Standing → Option Nat
  | .last => some 80
  | .plain => some 90
  | _ => none

variable {s t : Standing}

/-- Ranks are in the order of the branches, unless an else-if branch reaches the limit of the other edge. -/
theorem upTo_of_rank_le (le : s.rank ≤ t.rank)
    (below : ∀ n limit, t = .elseIf n → s.limit? = some limit → n < limit) : s.UpTo t := by
  cases t with
  | elseIf n =>
    cases s with
    | first => trivial
    | elseIf m => exact Nat.le_of_add_le_add_left le
    | last =>
      have := below n 80 rfl rfl
      simp only [rank] at le
      omega
    | plain =>
      have := below n 90 rfl rfl
      simp only [rank] at le
      omega
  | first =>
    cases s with
    | first => trivial
    | elseIf m =>
      simp only [rank] at le
      omega
    | _ => exact absurd le (by decide)
  | last =>
    cases s with
    | plain => exact absurd le (by decide)
    | _ => trivial
  | plain => cases s <;> trivial

/-- Nothing that has a limit belongs before an else-if branch. -/
theorem not_upTo_elseIf {n limit : Nat} (limited : s.limit? = some limit) : ¬ s.UpTo (.elseIf n) := by
  cases s <;> simp_all [limit?, UpTo]

theorem eighty_le_of_limit? {limit : Nat} (limited : s.limit? = some limit) : 80 ≤ limit := by
  cases s <;> simp_all [limit?]
  omega

theorem rank_of_limit? {limit : Nat} (limited : s.limit? = some limit) : s.rank = 10 + limit := by
  cases s <;> simp_all [limit?, rank] <;> omega

end Standing

/-- Where an edge belongs among the branches of its node. -/
def standing (e : Edge) : Standing := .ofHandle e.sourceHandle

theorem rank_eq (handle : Option String) : rank handle = (Standing.ofHandle handle).rank := by
  cases handle with
  | none => rfl
  | some h =>
    have right : rightHandles.contains h = true → Handle.elseIf? h = none := by
      intro mem
      simp only [rightHandles, List.contains_eq_mem, List.mem_cons, List.not_mem_nil, or_false,
        decide_eq_true_eq] at mem
      rcases mem with rfl | rfl | rfl <;> decide
    simp only [rank, Standing.ofHandle]
    split
    · rfl
    · by_cases last : rightHandles.contains h = true
      · simp only [right last, if_pos last]
        rfl
      · simp only [if_neg last]
        cases Handle.elseIf? h <;> rfl

/-- The edges come in the order of their branches. -/
def Ordered (edges : List Edge) : Prop := edges.Pairwise fun e f => (standing e).UpTo (standing f)

instance (edges : List Edge) : Decidable (Ordered edges) :=
  inferInstanceAs (Decidable (edges.Pairwise _))

/-! ## Sorting by rank -/

variable {edges : List Edge} {e f : Edge}

/-- The sort compares the ranks of standings. -/
theorem sortByBranch_eq (edges : List Edge) :
    sortByBranch edges = edges.mergeSort fun e f => (standing e).rank ≤ (standing f).rank := by
  simp only [sortByBranch, rank_eq]
  rfl

theorem rank_trans (e f g : Edge) (ef : decide ((standing e).rank ≤ (standing f).rank) = true)
    (fg : decide ((standing f).rank ≤ (standing g).rank) = true) :
    decide ((standing e).rank ≤ (standing g).rank) = true := by
  rw [decide_eq_true_eq] at ef fg ⊢
  exact Nat.le_trans ef fg

theorem rank_total (e f : Edge) :
    (decide ((standing e).rank ≤ (standing f).rank)
      || decide ((standing f).rank ≤ (standing e).rank)) = true := by
  rw [Bool.or_eq_true, decide_eq_true_eq, decide_eq_true_eq]
  exact Nat.le_total _ _

theorem ranks_sortByBranch (edges : List Edge) :
    (sortByBranch edges).Pairwise fun e f => (standing e).rank ≤ (standing f).rank := by
  rw [sortByBranch_eq]
  exact (List.pairwise_mergeSort rank_trans rank_total edges).imp of_decide_eq_true

/-- Edges whose ranks are in order stay in their order. -/
theorem sublist_sortByBranch {chosen : List Edge} (sub : chosen.Sublist edges)
    (ranks : chosen.Pairwise fun e f => (standing e).rank ≤ (standing f).rank) :
    chosen.Sublist (sortByBranch edges) := by
  rw [sortByBranch_eq]
  exact List.sublist_mergeSort rank_trans rank_total (ranks.imp decide_eq_true) sub

/-- Sorting keeps the order of the edges that pass a test, if all that pass it have one rank. -/
theorem filter_sortByBranch {p : Edge → Bool} {r : Nat} (same : ∀ e, p e = true → (standing e).rank = r)
    (edges : List Edge) : (sortByBranch edges).filter p = edges.filter p := by
  have stays : (edges.filter p).Sublist (sortByBranch edges) := by
    refine sublist_sortByBranch List.filter_sublist (List.pairwise_of_forall_mem_list fun e mem f memF => ?_)
    exact Nat.le_of_eq ((same e (List.mem_filter.1 mem).2).trans (same f (List.mem_filter.1 memF).2).symm)
  have inside := stays.filter p
  rw [List.filter_filter] at inside
  simp only [Bool.and_self] at inside
  exact (inside.eq_of_length ((sortByBranch_perm edges).filter p).length_eq.symm).symm

/-! ## Edges that are overtaken -/

/-- An else-if branch is put behind an edge that belongs after it: its number is above the limit of the
other, or equal to it and the other stands before it. -/
def Overtaken (edges : List Edge) (e f : Edge) : Prop :=
  ∃ n limit, standing e = .elseIf n ∧ (standing f).limit? = some limit ∧ e ∈ edges ∧ f ∈ edges
    ∧ (limit < n ∨ limit = n ∧ [f, e].Sublist edges)

/-- Of sorted edges, one with a smaller rank stands before one with a greater rank. -/
theorem upTo_of_rank_lt (ordered : Ordered (sortByBranch edges)) (memE : e ∈ edges) (memF : f ∈ edges)
    (lt : (standing f).rank < (standing e).rank) : (standing f).UpTo (standing e) := by
  have ranks := ranks_sortByBranch edges
  have there := (sortByBranch_perm edges).mem_iff.2 memE
  obtain ⟨before, after, split⟩ := List.append_of_mem ((sortByBranch_perm edges).mem_iff.2 memF)
  rw [Ordered, split] at ordered
  rw [split] at ranks there
  obtain ⟨-, ordered, -⟩ := List.pairwise_append.1 ordered
  obtain ⟨-, -, across⟩ := List.pairwise_append.1 ranks
  rcases List.mem_append.1 there with earlier | later
  · have le := across e earlier f List.mem_cons_self
    omega
  · rcases List.mem_cons.1 later with rfl | later
    · exact absurd lt (Nat.lt_irrefl _)
    · exact (List.pairwise_cons.1 ordered).1 e later

/-- An edge that overtakes another one stands before it afterwards. -/
theorem Overtaken.not_ordered (h : Overtaken edges e f) : ¬ Ordered (sortByBranch edges) := by
  obtain ⟨n, limit, elseIf, limited, memE, memF, reach⟩ := h
  intro ordered
  have never : ¬ (standing f).UpTo (standing e) := elseIf ▸ Standing.not_upTo_elseIf limited
  have rankE : (standing e).rank = 10 + n := by rw [elseIf]; rfl
  have rankF := Standing.rank_of_limit? limited
  rcases reach with above | ⟨rfl, before⟩
  · exact never (upTo_of_rank_lt ordered memE memF (by omega))
  · have stays : [f, e].Sublist (sortByBranch edges) :=
      sublist_sortByBranch before (List.pairwise_pair.2 (Nat.le_of_eq (rankF.trans rankE.symm)))
    exact never (List.pairwise_iff_forall_sublist.1 ordered stays)

/-- Edges that come out of order were overtaken. -/
theorem overtaken_of_sublist (sub : [f, e].Sublist (sortByBranch edges))
    (wrong : ¬ (standing f).UpTo (standing e)) : Overtaken edges e f := by
  have le := List.pairwise_iff_forall_sublist.1 (ranks_sortByBranch edges) sub
  by_contra free
  refine wrong (Standing.upTo_of_rank_le le fun n limit elseIf limited => ?_)
  have rankE : (standing e).rank = 10 + n := by rw [elseIf]; rfl
  have rankF := Standing.rank_of_limit? limited
  have memE : e ∈ edges := (sortByBranch_perm edges).mem_iff.1 (sub.subset (by simp))
  have memF : f ∈ edges := (sortByBranch_perm edges).mem_iff.1 (sub.subset (by simp))
  by_contra reach
  refine free ⟨n, limit, elseIf, limited, memE, memF, ?_⟩
  rcases Nat.lt_or_eq_of_le (Nat.le_of_not_lt reach) with above | same
  · exact .inl above
  · -- edges of the same rank are in the order in which they were
    refine .inr ⟨same, ?_⟩
    have kept := sub.filter fun x => (standing x).rank = 10 + n
    rw [filter_sortByBranch (r := 10 + n) (by simp)] at kept
    refine List.Sublist.trans ?_ (List.filter_sublist (p := fun x => (standing x).rank = 10 + n))
    simpa [rankE, rankF, same] using kept

/-! ## Edges that are sorted -/

/-- Edges are sorted exactly if the number of every handle can be read. -/
theorem succeed_rankConversions_iff :
    Conversion.Succeed (rankConversions edges) ↔ ∀ e ∈ edges, Handle.Short e.door := by
  rw [rankConversions, Conversion.succeed_flatMap]
  refine forall₂_congr fun e _ => ?_
  rw [Edge.door]
  cases e.sourceHandle with
  | none => exact iff_of_true (by simp) fun _ numbered => by cases numbered
  | some handle => simp [Handle.failure?_eq_none_iff]

/-- Edges are sorted exactly if the number of every handle can be read.  Sorting by branch moves them without
changing the order of those with the same standing, and puts them in the order of their branches exactly if no
else-if branch is overtaken. -/
theorem ordered_trySort_iff (edges : List Edge) :
    ((∃ sorted, trySort edges = .ok sorted) ↔ ∀ e ∈ edges, Handle.Short e.door)
      ∧ ∀ sorted, trySort edges = .ok sorted →
          sorted.Perm edges
            ∧ (∀ s, sorted.filter (standing · = s) = edges.filter (standing · = s))
            ∧ (Ordered sorted ↔ ∀ e f, ¬ Overtaken edges e f) := by
  refine ⟨Conversion.exists_after_eq_ok_iff.trans succeed_rankConversions_iff, fun sorted done => ?_⟩
  obtain ⟨-, rfl⟩ := Conversion.after_eq_ok_iff.1 done
  refine ⟨sortByBranch_perm edges, fun s => ?_, fun ordered e f overtaken => ?_, fun free => ?_⟩
  · exact filter_sortByBranch (r := s.rank) (fun e same => by rw [of_decide_eq_true same]) edges
  · exact overtaken.not_ordered ordered
  · refine List.pairwise_iff_forall_sublist.2 fun {f e} sub => ?_
    by_contra wrong
    exact free e f (overtaken_of_sublist sub wrong)

/-- An edge that leaves a node on a handle. -/
def leaving (id handle : String) : Edge :=
  { id, source := "c", target := "x", sourceHandle := some handle }

/-- Where no number comes near a limit, the edges are put in the order of their branches. -/
theorem ordered_trySort_iff_three :
    let edges := [leaving "a" "else", leaving "b" "else_if_2", leaving "d" "if"]
    ∃ sorted, trySort edges = .ok sorted ∧ sorted.Perm edges ∧ Ordered sorted := by
  intro edges
  obtain ⟨sorts, extent⟩ := ordered_trySort_iff edges
  obtain ⟨sorted, done⟩ := sorts.2 (by decide +kernel)
  obtain ⟨perm, -, ordered⟩ := extent sorted done
  refine ⟨sorted, done, perm, ordered.2 ?_⟩
  rintro e f ⟨n, limit, elseIf, limited, mem, -, reach⟩
  have standings : edges.map standing = [.last, .elseIf 2, .first] := by decide +kernel
  have two : n = 2 := by
    have there := List.mem_map_of_mem (f := standing) mem
    rw [standings, elseIf] at there
    simpa using there
  have high := Standing.eighty_le_of_limit? limited
  omega

/-- A last branch that stands before the else-if branch with number eighty stays there, and where an edge is on
a handle that cannot be read nothing is sorted. -/
theorem not_ordered_trySort :
    (∃ sorted, trySort [leaving "a" "else", leaving "b" "else_if_80"] = .ok sorted ∧ ¬ Ordered sorted)
      ∧ trySort [leaving "a" Handle.overlong] = .error (.read (Decimal.mostDigits + 1)) := by
  have short : ∀ e ∈ [leaving "a" "else", leaving "b" "else_if_80"], Handle.Short e.door := by decide +kernel
  refine ⟨⟨_, Conversion.after_of_succeed (succeed_rankConversions_iff.2 short) _, ?_⟩, ?_⟩
  · refine Overtaken.not_ordered (e := leaving "b" "else_if_80") (f := leaving "a" "else") ?_
    exact ⟨80, 80, by decide +kernel, by decide +kernel, by simp, by simp, .inr ⟨rfl, List.Sublist.refl _⟩⟩
  · have failure : Conversion.firstFailure? (rankConversions [leaving "a" Handle.overlong])
        = some (.read (Decimal.mostDigits + 1)) := by
      simp [rankConversions, leaving, Conversion.firstFailure?, Handle.failure?_overlong]
    rw [trySort, Conversion.after, failure]

end Journey.Layout
