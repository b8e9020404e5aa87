import Journey.Fresh
import Mathlib.Data.List.Nodup

/-!
# Journey.Proofs.Supply -- identifiers that nobody has used before

A source of identifiers gives one suffix after the other.  What is asked of it is that no suffix ends
another one (`Distinct`) and that none of those still to come ends an identifier in use (`Spares`).
Then what is drawn between two states of a source is different from everything that was spared before,
each from each other, and spared by what comes later (`Draws`): the two conditions are kept by every
draw, so that they need to be asked for only once.
-/

namespace Journey

set_option autoImplicit false

/-- A name with something between its parts is not empty. -/
theorem joined_ne_empty (kind suffix : String) : kind ++ "_" ++ suffix ≠ "" := by
  intro void
  have chars := congrArg String.toList void
  simp at chars

namespace IdSource

/-- No suffix is the end of another one. -/
def Distinct (s : IdSource) : Prop :=
  ∀ i j, (s.suffix i).toList <:+ (s.suffix j).toList → i = j

/-- No suffix that is still to come is the end of the identifier. -/
def Spares (s : IdSource) (id : String) : Prop :=
  ∀ k, s.used ≤ k → ¬ (s.suffix k).toList <:+ id.toList

/-- The same source after some draws. -/
structure Later (s t : IdSource) : Prop where
  same : t.suffix = s.suffix
  used : s.used ≤ t.used

/-- The source after one draw. -/
def next (s : IdSource) : IdSource := { s with used := s.used + 1 }

variable {s t u : IdSource} {id before : String} {ids more : List String}

theorem Later.refl (s : IdSource) : s.Later s := ⟨rfl, Nat.le_refl _⟩

theorem Later.trans (h : s.Later t) (k : t.Later u) : s.Later u :=
  ⟨k.same.trans h.same, Nat.le_trans h.used k.used⟩

theorem later_next (s : IdSource) : s.Later s.next := ⟨rfl, Nat.le_succ _⟩

theorem Later.distinct (h : s.Later t) (distinct : s.Distinct) : t.Distinct := by
  intro i j ends
  rw [h.same] at ends
  exact distinct i j ends

theorem Later.spares (h : s.Later t) (spared : s.Spares id) : t.Spares id := by
  intro k still ends
  rw [h.same] at ends
  exact spared k (Nat.le_trans h.used still) ends

/-- An identifier that ends in one suffix ends in no other. -/
theorem Distinct.eq_of_ends (distinct : s.Distinct) {i j : Nat}
    (ends : (s.suffix i).toList <:+ (before ++ s.suffix j).toList) : i = j := by
  have own : (s.suffix j).toList <:+ (before ++ s.suffix j).toList := by
    rw [String.toList_append]
    exact List.suffix_append _ _
  rcases List.suffix_or_suffix_of_suffix ends own with shorter | longer
  · exact distinct i j shorter
  · exact (distinct j i longer).symm

/-- Different identifiers are drawn between two states of a source. -/
structure Draws (s t : IdSource) (ids : List String) : Prop where
  later : s.Later t
  distinct : ids.Nodup
  drawn : ∀ id ∈ ids, ∃ before k, s.used ≤ k ∧ k < t.used ∧ id = before ++ s.suffix k

theorem draws_nil (s : IdSource) : s.Draws s [] := ⟨Later.refl s, List.nodup_nil, by simp⟩

theorem draws_next (s : IdSource) (before : String) :
    s.Draws s.next [before ++ s.suffix s.used] := by
  refine ⟨later_next s, List.nodup_singleton _, fun id mem => ?_⟩
  exact ⟨before, s.used, Nat.le_refl _, Nat.lt_succ_self _, List.mem_singleton.1 mem⟩

/-- What was drawn is spared by all that is still to come. -/
theorem Draws.spares (h : s.Draws t ids) (distinct : s.Distinct) : ∀ id ∈ ids, t.Spares id := by
  intro id mem k still ends
  obtain ⟨before, j, -, lt, rfl⟩ := h.drawn id mem
  rw [h.later.same] at ends
  have := distinct.eq_of_ends ends
  omega

/-- What was spared before is not drawn. -/
theorem Draws.not_mem (h : s.Draws t ids) (spared : s.Spares id) : id ∉ ids := by
  intro mem
  obtain ⟨before, k, still, -, rfl⟩ := h.drawn id mem
  apply spared k still
  rw [String.toList_append]
  exact List.suffix_append _ _

theorem Draws.append (h : s.Draws t ids) (k : t.Draws u more) (distinct : s.Distinct) :
    s.Draws u (ids ++ more) where
  later := h.later.trans k.later
  distinct := by
    refine List.nodup_append.2 ⟨h.distinct, k.distinct, fun a memA b memB same => ?_⟩
    exact k.not_mem (h.spares distinct a memA) (same ▸ memB)
  drawn := by
    intro id mem
    rcases List.mem_append.1 mem with first | second
    · obtain ⟨before, j, low, high, same⟩ := h.drawn id first
      exact ⟨before, j, low, Nat.lt_of_lt_of_le high k.later.used, same⟩
    · obtain ⟨before, j, low, high, same⟩ := k.drawn id second
      exact ⟨before, j, Nat.le_trans h.later.used low, high, h.later.same ▸ same⟩

/-! ## A source that counts in strokes -/

/-- A mark with as many strokes after it as suffixes came before. -/
def strokes : IdSource := { suffix := fun k => String.ofList ('#' :: List.replicate k 'i') }

theorem distinct_strokes : strokes.Distinct := by
  intro i j ends
  simp only [strokes, String.toList_ofList] at ends
  rcases List.suffix_cons_iff.1 ends with same | inside
  · have lengths := congrArg List.length same
    simpa using lengths
  · -- there is no mark among strokes
    have mark := List.eq_of_mem_replicate (inside.subset List.mem_cons_self)
    cases mark

/-- What has no mark is not drawn. -/
theorem spares_strokes (plain : '#' ∉ id.toList) : strokes.Spares id := by
  intro k _ ends
  apply plain
  apply ends.subset
  simp [strokes]

end IdSource

end Journey
