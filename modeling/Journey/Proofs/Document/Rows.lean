import Journey.Proofs.Condition.Reading

/-!
# Journey.Proofs.Document.Rows -- rows that are written and read again

An object is written with its declared members first and the foreign ones after them, and without the
members that hold nothing.  What is read from it again depends on how the two kinds of members stand to
each other.  They are apart (`Fields.Apart`) if no foreign member has the written spelling of a declared
field, nor the other spelling of a field that holds nothing: it would be taken for the field once that is
left out.

Main statements: where the members are apart, a declared field is found again under its written spelling
exactly if it holds something (`Apart.find?`), and what no field takes is the foreign members without
those that hold nothing (`Apart.unclaimed`).  Writing these once more changes nothing (`kept_kept`).
-/

namespace Journey

set_option autoImplicit false

namespace Fields

variable {row front others : Fields} {k : String} {v : Document}

theorem get?_eq_none_iff : get? row k = none ↔ k ∉ keys row := by
  rw [get?, List.lookup_eq_none_iff, keys, List.mem_map]
  constructor
  · rintro missing ⟨m, mem, rfl⟩
    simpa using missing m mem
  · intro new m mem
    rw [bne_iff_ne]
    exact fun same => new ⟨m, mem, same.symm⟩

theorem mem_of_get? (h : get? row k = some v) : (k, v) ∈ row := by
  induction row with
  | nil => cases h
  | cons m row ih =>
    rw [get?_cons] at h
    split at h
    · next same =>
      cases h
      exact same ▸ List.mem_cons_self
    · exact List.mem_cons_of_mem _ (ih h)

theorem get?_of_mem (distinct : (keys row).Nodup) (mem : (k, v) ∈ row) : get? row k = some v := by
  induction row with
  | nil => cases mem
  | cons m row ih =>
    obtain ⟨l, w⟩ := m
    obtain ⟨new, distinct⟩ := List.nodup_cons.1 distinct
    rw [get?_cons]
    rcases List.mem_cons.1 mem with same | later
    · cases same
      rw [if_pos rfl]
    · rw [if_neg, ih distinct later]
      rintro rfl
      exact new (List.mem_map.2 ⟨_, later, rfl⟩)

/-! ## Members that are put into a row -/

theorem set_of_not_mem (new : k ∉ keys row) (v : Document) : set row k v = row ++ [(k, v)] := by
  induction row with
  | nil => rfl
  | cons m row ih =>
    obtain ⟨l, w⟩ := m
    obtain ⟨other, new⟩ := not_or.1 (List.mem_cons.not.1 new)
    rw [set, if_neg (Ne.symm other), ih new, List.cons_append]

theorem set_append (new : k ∉ keys front) (row : Fields) (v : Document) :
    set (front ++ row) k v = front ++ set row k v := by
  induction front with
  | nil => rfl
  | cons m front ih =>
    obtain ⟨l, w⟩ := m
    obtain ⟨other, new⟩ := not_or.1 (List.mem_cons.not.1 new)
    rw [List.cons_append, set, if_neg (Ne.symm other), ih new, List.cons_append]

theorem keys_set (row : Fields) (k : String) (v : Document) :
    keys (set row k v) = if k ∈ keys row then keys row else keys row ++ [k] := by
  induction row with
  | nil => rfl
  | cons m row ih =>
    obtain ⟨l, w⟩ := m
    by_cases same : l = k
    · subst same
      simp [set, keys]
    · simp only [keys] at ih
      rw [set, if_neg same, keys, List.map_cons, ih]
      by_cases later : k ∈ row.map (·.1)
      · simp [keys, later]
      · simp [keys, later, Ne.symm same]

theorem nodup_keys_set (distinct : (keys row).Nodup) (k : String) (v : Document) :
    (keys (set row k v)).Nodup := by
  rw [keys_set]
  split
  · exact distinct
  · next new => exact List.nodup_append_comm.1 (List.nodup_cons.2 ⟨new, distinct⟩)

theorem nodup_keys_overlay (distinct : (keys row).Nodup) (others : Fields) :
    (keys (overlay row others)).Nodup := by
  induction others generalizing row with
  | nil => exact distinct
  | cons m others ih => exact ih (nodup_keys_set distinct m.1 m.2)

theorem mem_keys_overlay : k ∈ keys (overlay row others) ↔ k ∈ keys row ∨ k ∈ keys others := by
  induction others generalizing row with
  | nil => simp [overlay, keys]
  | cons m others ih =>
    have put : k ∈ keys (set row m.1 m.2) ↔ k ∈ keys row ∨ k = m.1 := by
      rw [keys_set]
      split
      · next there => exact ⟨.inl, fun one => one.elim id fun same => same ▸ there⟩
      · rw [List.mem_append, List.mem_singleton]
    show k ∈ keys (overlay (set row m.1 m.2) others) ↔ _
    rw [ih, put, or_assoc]
    exact or_congr_right List.mem_cons.symm

/-- Members with other keys are put behind those that are there. -/
theorem overlay_append (apart : ∀ k ∈ keys others, k ∉ keys front) (row : Fields) :
    overlay (front ++ row) others = front ++ overlay row others := by
  induction others generalizing row with
  | nil => rfl
  | cons m others ih =>
    obtain ⟨new, rest⟩ := List.forall_mem_cons.1 apart
    show overlay (set (front ++ row) m.1 m.2) others = front ++ overlay (set row m.1 m.2) others
    rw [set_append new, ih rest]

/-- Members with keys of their own stay as they are. -/
theorem overlay_of_nodup (distinct : (keys (row ++ others)).Nodup) :
    overlay row others = row ++ others := by
  induction others generalizing row with
  | nil => exact (List.append_nil row).symm
  | cons m others ih =>
    have whole : row ++ m :: others = row ++ [m] ++ others := by rw [List.append_assoc]; rfl
    rw [whole] at distinct ⊢
    have new : m.1 ∉ keys row := by
      have front : (keys (row ++ [m])).Nodup := by
        rw [keys, List.map_append] at distinct
        exact (List.nodup_append.1 distinct).1
      rw [keys, List.map_append] at front
      intro there
      exact (List.nodup_append.1 front).2.2 _ there _ (by simp) rfl
    show overlay (set row m.1 m.2) others = _
    rw [set_of_not_mem new, ih distinct]

/-! ## Members that hold something -/

theorem keys_members_subset (nulls : Nulls) (row : Fields) :
    keys (nulls.members row) ⊆ keys row := by
  cases nulls with
  | kept => exact List.Subset.refl _
  | dropped => exact List.map_subset _ (List.filter_sublist.subset)

theorem get?_members (distinct : (keys row).Nodup) (k : String) :
    get? (Nulls.dropped.members row) k = (get? row k).filter fun d => !d.isNull := by
  induction row with
  | nil => rfl
  | cons m row ih =>
    obtain ⟨l, w⟩ := m
    obtain ⟨new, distinct⟩ := List.nodup_cons.1 distinct
    have rest := ih distinct
    simp only [Nulls.members] at rest ⊢
    by_cases null : w.isNull = true
    · rw [List.filter_cons_of_neg (by simp [null]), rest, get?_cons]
      by_cases same : k = l
      · subst same
        rw [if_pos rfl, get?_eq_none_iff.2 new, Option.filter_none, Option.filter_some_neg (by simp [null])]
      · rw [if_neg same]
    · rw [List.filter_cons_of_pos (by simp [null]), get?_cons, get?_cons, rest]
      by_cases same : k = l
      · rw [if_pos same, if_pos same, Option.filter_some_pos (by simp [null])]
      · rw [if_neg same, if_neg same]

theorem filter_isNull_getD (d? : Option Document) :
    (d?.filter fun d => !d.isNull).getD .null = d?.getD .null := by
  cases d? with
  | none => rfl
  | some d => cases d <;> rfl

/-- Leaving out what holds nothing is not seen where a member is looked up. -/
theorem getD_members (distinct : (keys row).Nodup) (k : String) :
    getD (Nulls.dropped.members row) k = getD row k := by
  rw [getD, getD, get?_members distinct, filter_isNull_getD]

/-- The foreign members as they are written. -/
def kept (others : Fields) : Fields := Nulls.dropped.members (overlay [] others)

theorem nodup_keys_kept (others : Fields) : (keys (kept others)).Nodup := by
  have void : (keys []).Nodup := List.nodup_nil
  exact (List.filter_sublist.map _).nodup (nodup_keys_overlay void others)

theorem keys_kept_subset (others : Fields) : keys (kept others) ⊆ keys others := by
  intro k mem
  rcases mem_keys_overlay.1 (keys_members_subset .dropped _ mem) with impossible | there
  · cases impossible
  · exact there

/-- Foreign members that were written are written as they are. -/
theorem kept_kept (others : Fields) : kept (kept others) = kept others := by
  have distinct : (keys ([] ++ kept others)).Nodup := nodup_keys_kept others
  have whole : overlay [] (kept others) = kept others := overlay_of_nodup distinct
  rw [kept, whole, kept]
  exact List.filter_filter.trans (by simp only [Bool.and_self, Nulls.members])

theorem mem_set {m : String × Document} (h : m ∈ set row k v) : m = (k, v) ∨ m ∈ row := by
  induction row with
  | nil => exact .inl (List.mem_singleton.1 h)
  | cons n row ih =>
    obtain ⟨l, w⟩ := n
    rw [set] at h
    split at h
    · exact (List.mem_cons.1 h).imp_right (List.mem_cons_of_mem _)
    · rcases List.mem_cons.1 h with rfl | later
      · exact .inr List.mem_cons_self
      · exact (ih later).imp_right (List.mem_cons_of_mem _)

theorem mem_overlay {m : String × Document} (h : m ∈ overlay row others) : m ∈ row ∨ m ∈ others := by
  induction others generalizing row with
  | nil => exact .inl h
  | cons n others ih =>
    rcases ih h with put | later
    · rcases mem_set put with rfl | there
      · exact .inr List.mem_cons_self
      · exact .inl there
    · exact .inr (List.mem_cons_of_mem _ later)

/-- Every member holds something. -/
def Solid (row : Fields) : Prop := ∀ m ∈ row, m.2.isNull = false

instance (row : Fields) : Decidable row.Solid :=
  inferInstanceAs (Decidable (∀ m ∈ row, m.2.isNull = false))

theorem Solid.without (h : row.Solid) (dropped : List String) : (without row dropped).Solid :=
  fun m mem => h m (List.mem_of_mem_filter mem)

/-- Members that hold something are written. -/
theorem kept_ne_nil (solid : others.Solid) (nonempty : others ≠ []) : kept others ≠ [] := by
  obtain ⟨m, mem⟩ := List.exists_mem_of_ne_nil _ nonempty
  obtain ⟨n, there, -⟩ := List.mem_map.1
    (mem_keys_overlay.2 (.inr (List.mem_map_of_mem mem)) : m.1 ∈ keys (overlay [] others))
  have held : n.2.isNull = false := (mem_overlay there).elim (fun impossible => nomatch impossible) (solid n)
  exact List.ne_nil_of_mem (List.mem_filter.2 ⟨there, by simp [held]⟩)

theorem members_overlay (apart : ∀ k ∈ keys others, k ∉ keys row) :
    Nulls.dropped.members (overlay row others) = Nulls.dropped.members row ++ kept others := by
  have behind := overlay_append apart []
  rw [List.append_nil] at behind
  rw [behind, kept, Nulls.members, Nulls.members, Nulls.members, List.filter_append]

end Fields

/-! ## Declared and foreign members -/

/-- The written spellings tell the fields apart, and no field has that of another one. -/
def Key.Proper (keys : List Key) : Prop :=
  (keys.map (·.written)).Nodup ∧ ∀ k ∈ keys, ∀ l ∈ keys, k.other = l.written → k = l

instance (keys : List Key) : Decidable (Key.Proper keys) :=
  inferInstanceAs (Decidable (_ ∧ _))

namespace Fields

/-- The members of declared fields, each in its written spelling. -/
def declared (ds : List (Key × Document)) : Fields := ds.map fun m => (m.1.written, m.2)

/-- No foreign member has the written spelling of a declared field, nor the other one of a field that
holds nothing. -/
structure Apart (ds : List (Key × Document)) (others : Fields) : Prop where
  proper : Key.Proper (ds.map (·.1))
  written : ∀ m ∈ ds, get? others m.1.written = none
  other : ∀ m ∈ ds, m.2.isNull = true → get? others m.1.other = none

variable {ds : List (Key × Document)} {others : Fields} {key : Key} {d : Document}

theorem keys_declared (ds : List (Key × Document)) :
    keys (declared ds) = (ds.map (·.1)).map (·.written) := by
  simp [keys, declared]

namespace Apart

variable (h : Apart ds others)

include h

theorem nodup : (keys (declared ds)).Nodup := keys_declared ds ▸ h.proper.1

theorem keys_apart : ∀ k ∈ keys others, k ∉ keys (declared ds) := by
  intro k mem again
  rw [keys_declared, List.map_map] at again
  obtain ⟨m, there, rfl⟩ := List.mem_map.1 again
  exact get?_eq_none_iff.1 (h.written m there) mem

theorem members_eq : Nulls.dropped.members (overlay (declared ds) others)
    = Nulls.dropped.members (declared ds) ++ Fields.kept others := members_overlay h.keys_apart

/-- The foreign members that were written are apart from the declared ones as before. -/
theorem of_kept : Apart ds (Fields.kept others) where
  proper := h.proper
  written m mem := get?_eq_none_iff.2 fun there =>
    get?_eq_none_iff.1 (h.written m mem) (keys_kept_subset others there)
  other m mem null := get?_eq_none_iff.2 fun there =>
    get?_eq_none_iff.1 (h.other m mem null) (keys_kept_subset others there)

/-- Writing again what was written changes nothing. -/
theorem members_kept : Nulls.dropped.members (overlay (declared ds) (Fields.kept others))
    = Nulls.dropped.members (overlay (declared ds) others) := by
  rw [h.of_kept.members_eq, h.members_eq, kept_kept]

theorem get?_declared (mem : (key, d) ∈ ds) : get? (declared ds) key.written = some d :=
  get?_of_mem h.nodup (List.mem_map.2 ⟨_, mem, rfl⟩)

/-- No field that holds something has the other spelling of one that holds nothing. -/
theorem get?_other (mem : (key, d) ∈ ds) (null : d.isNull = true) :
    (get? (declared ds) key.other).filter (fun d => !d.isNull) = none := by
  cases there : get? (declared ds) key.other with
  | none => rfl
  | some e =>
    have listed : key.other ∈ keys (declared ds) := by
      by_contra new
      rw [get?_eq_none_iff.2 new] at there
      cases there
    rw [keys_declared] at listed
    obtain ⟨l, memL, same⟩ := List.mem_map.1 listed
    obtain rfl : key = l := h.proper.2 key (List.mem_map_of_mem mem) l memL same.symm
    rw [← same, h.get?_declared mem] at there
    rw [← there, Option.filter_some_neg (by simp [null])]

/-- A declared field is found again under its written spelling exactly if it holds something. -/
theorem find? (mem : (key, d) ∈ ds) : key.find? (Nulls.dropped.members (overlay (declared ds) others))
    = if d.isNull then none else some (key.written, d) := by
  have lookUp (k : String) : get? (Nulls.dropped.members (overlay (declared ds) others)) k
      = ((get? (declared ds) k).filter fun d => !d.isNull).or (get? (Fields.kept others) k) := by
    rw [h.members_eq, get?, List.lookup_append]
    exact congrArg (Option.or · _) (get?_members h.nodup k)
  have written := lookUp key.written
  rw [h.get?_declared mem, h.of_kept.written _ mem, Option.or_none] at written
  split
  · next null =>
    rw [Option.filter_some_neg (by simp [null])] at written
    rw [Key.find?, written, lookUp, h.get?_other mem null, h.of_kept.other _ mem null]
    rfl
  · next held =>
    rw [Option.filter_some_pos (by simpa using held)] at written
    exact Key.find?_written written

/-- What no field takes is the foreign members that are written. -/
theorem unclaimed : Key.unclaimed (ds.map (·.1)) (Nulls.dropped.members (overlay (declared ds) others))
    = Fields.kept others := by
  have taken (k : String) : k ∈ (ds.map (·.1)).filterMap (fun key =>
      (key.find? (Nulls.dropped.members (overlay (declared ds) others))).map (·.1))
        ↔ ∃ m ∈ ds, m.2.isNull = false ∧ m.1.written = k := by
    rw [List.filterMap_map, List.mem_filterMap]
    refine exists_congr fun m => and_congr_right fun mem => ?_
    rw [Function.comp_apply, h.find? mem]
    cases m.2.isNull <;> simp
  rw [Key.unclaimed]
  generalize (ds.map (·.1)).filterMap (fun key =>
    (key.find? (Nulls.dropped.members (overlay (declared ds) others))).map (·.1)) = found at taken ⊢
  rw [h.members_eq, List.filter_append]
  have front : (Nulls.dropped.members (declared ds)).filter (fun m => !found.contains m.1) = [] := by
    rw [List.filter_eq_nil_iff]
    intro m mem
    obtain ⟨there, held⟩ := List.mem_filter.1 mem
    obtain ⟨n, memN, rfl⟩ := List.mem_map.1 there
    have used := (taken n.1.written).2 ⟨n, memN, by simpa using held, rfl⟩
    simpa using used
  have rest : (Fields.kept others).filter (fun m => !found.contains m.1) = Fields.kept others := by
    rw [List.filter_eq_self]
    intro m mem
    have free : m.1 ∉ found := by
      intro used
      obtain ⟨n, memN, -, same⟩ := (taken m.1).1 used
      exact get?_eq_none_iff.1 (h.of_kept.written n memN) (same ▸ List.mem_map_of_mem mem)
    simpa using free
  rw [front, rest, List.nil_append]

/-- What is not declared is the foreign members that are written. -/
theorem without : Fields.without (Nulls.dropped.members (overlay (declared ds) others))
    ((ds.map (·.1)).map (·.written)) = Fields.kept others := by
  rw [← keys_declared, h.members_eq, Fields.without, List.filter_append]
  have front : (Nulls.dropped.members (declared ds)).filter
      (fun m => !(keys (declared ds)).contains m.1) = [] := by
    rw [List.filter_eq_nil_iff]
    intro m mem
    have listed := keys_members_subset .dropped _ (List.mem_map_of_mem mem)
    simpa using listed
  have rest : (Fields.kept others).filter (fun m => !(keys (declared ds)).contains m.1)
      = Fields.kept others := by
    rw [List.filter_eq_self]
    intro m mem
    have free := h.of_kept.keys_apart m.1 (List.mem_map_of_mem mem)
    simpa using free
  rw [front, rest, List.nil_append]

theorem getD (mem : (key, d) ∈ ds) :
    Fields.getD (Nulls.dropped.members (overlay (declared ds) others)) key.written = d := by
  rw [getD_members (nodup_keys_overlay h.nodup others), Fields.getD,
    get?_overlay_of_absent (h.written _ mem), h.get?_declared mem]
  rfl

end Apart

end Fields

end Journey
