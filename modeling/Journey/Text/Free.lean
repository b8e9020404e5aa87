/-!
# Journey.Text.Free -- the first name that is not taken

Where things are named by numbers, a new one gets the least number whose name is not taken.  Among one
more names than are taken there is a free one, so only so many numbers have to be tried.

Main statements: the name of the number is not taken (`not_mem_freeNumber`), and the names of all lesser
ones are (`mem_of_lt_freeNumber`).
-/

namespace Journey.Text

set_option autoImplicit false

/-- The least number from `start` on whose name is not taken. -/
def freeNumber (name : Nat → String) (start : Nat) (taken : List String) : Nat :=
  (((List.range (taken.length + 1)).map (start + ·)).find? fun n =>
    !taken.contains (name n)).getD start

/-- Distinct members of a list are no more than it has. -/
theorem length_le_of_subset {l t : List String} (distinct : l.Nodup) (sub : ∀ x ∈ l, x ∈ t) :
    l.length ≤ t.length := by
  induction l generalizing t with
  | nil => simp
  | cons a l ih =>
    obtain ⟨new, rest⟩ := List.nodup_cons.1 distinct
    have mem : a ∈ t := sub a List.mem_cons_self
    have smaller : l.length ≤ (t.erase a).length := by
      refine ih rest fun x hx => ?_
      have ne : x ≠ a := fun h => new (h ▸ hx)
      exact (List.mem_erase_of_ne ne).2 (sub x (List.mem_cons_of_mem _ hx))
    have pos : 0 < t.length := List.length_pos_of_mem mem
    rw [List.length_erase_of_mem mem] at smaller
    simp only [List.length_cons]
    omega

variable {name : Nat → String} {start : Nat} {taken : List String}

theorem exists_free (distinct : ∀ m n, name m = name n → m = n) (start : Nat)
    (taken : List String) :
    ∃ n ∈ (List.range (taken.length + 1)).map (start + ·), name n ∉ taken := by
  refine Classical.byContradiction fun none => ?_
  have all : ∀ x ∈ (List.range (taken.length + 1)).map (fun i => name (start + i)), x ∈ taken := by
    intro x hx
    obtain ⟨i, hi, rfl⟩ := List.mem_map.1 hx
    refine Classical.byContradiction fun free => none ⟨start + i, ?_, free⟩
    exact List.mem_map.2 ⟨i, hi, rfl⟩
  have nodup : ((List.range (taken.length + 1)).map fun i => name (start + i)).Nodup := by
    refine List.Pairwise.map _ (fun i j ne same => ne ?_) List.nodup_range
    have := distinct _ _ same
    omega
  have := length_le_of_subset nodup all
  simp only [List.length_map, List.length_range] at this
  omega

theorem find?_freeNumber (distinct : ∀ m n, name m = name n → m = n) (start : Nat)
    (taken : List String) :
    ((List.range (taken.length + 1)).map (start + ·)).find? (fun n => !taken.contains (name n))
      = some (freeNumber name start taken) := by
  obtain ⟨n, mem, free⟩ := exists_free distinct start taken
  have found : (((List.range (taken.length + 1)).map (start + ·)).find? fun n =>
      !taken.contains (name n)).isSome := by
    rw [List.find?_isSome]
    exact ⟨n, mem, by simpa using free⟩
  obtain ⟨k, hk⟩ := Option.isSome_iff_exists.1 found
  simp only [freeNumber, hk, Option.getD_some]

theorem not_mem_freeNumber (distinct : ∀ m n, name m = name n → m = n) :
    name (freeNumber name start taken) ∉ taken := by
  simpa using List.find?_some (find?_freeNumber distinct start taken)

theorem le_freeNumber (distinct : ∀ m n, name m = name n → m = n) :
    start ≤ freeNumber name start taken := by
  have mem := List.mem_of_find?_eq_some (find?_freeNumber distinct start taken)
  obtain ⟨i, -, h⟩ := List.mem_map.1 mem
  omega

theorem mem_of_lt_freeNumber (distinct : ∀ m n, name m = name n → m = n) {n : Nat}
    (above : start ≤ n) (lt : n < freeNumber name start taken) : name n ∈ taken := by
  have found := find?_freeNumber distinct start taken
  rw [List.find?_map, Option.map_eq_some_iff] at found
  obtain ⟨i, hi, same⟩ := found
  rw [List.find?_range_eq_some] at hi
  obtain ⟨-, -, before⟩ := hi
  have := before (n - start) (by omega)
  simpa [show start + (n - start) = n by omega] using this

end Journey.Text
