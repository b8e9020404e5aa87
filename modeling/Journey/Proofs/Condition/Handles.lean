import Journey.Condition.Branch
import Mathlib.Data.List.Induction
import Mathlib.Data.List.Nodup
import Mathlib.Data.List.Perm.Subperm

/-!
# Journey.Proofs.Condition.Handles -- the handles that clauses get

Handles are canonical when the first is that of the first branch and the others are the else-if handles
with the numbers from one on, each once (`Handle.Canonical`).  The list of clauses that any stored value
stands for has such handles (`canonical_canonical`): a clause asks for a handle, and what it is granted
is free and has a number below the number of clauses, since a free number is found before as many
numbers are tried as there are clauses (`grantHandle_mem`).  Handles that are canonical already are
granted as they are (`withHandles_eq_self`).  The branches are on the handles of the clauses, with the
last one on `else` (`map_handle_branches`).

For this an else-if handle has to be known by its number: what has a number is the handle with that
number (`eq_of_elseIf?`), because digits without a zero in front are those of the number they denote.
-/

namespace Journey

set_option autoImplicit false

open Journey.Text (trim lower)

namespace Decimal

theorem digitChar_of_isDigit {c : Char} (h : isDigit c = true) :
    (c.toNat - 48).digitChar = c := by
  have low : 48 ≤ c.toNat ∧ c.toNat ≤ 57 := by
    simpa [isDigit, Char.le_def, UInt32.le_iff_toNat_le] using h
  have all : ∀ k : Fin 10, k.val.digitChar = Char.ofNat (k.val + 48) := by decide
  have this := all ⟨c.toNat - 48, by omega⟩
  simp only [Nat.sub_add_cancel low.1, Char.ofNat_toNat] at this
  exact this

/-- Digits without a zero in front are those of the number they denote. -/
theorem toDigits_digitsValue {d : Char} {ds : List Char} (low : '1' ≤ d) (high : d ≤ '9')
    (digits : ds.all isDigit = true) : Nat.toDigits 10 (digitsValue (d :: ds)) = d :: ds := by
  have first : isDigit d = true := by
    have : '0' ≤ d := Char.le_trans (by decide) low
    simp [isDigit, this, high]
  have value {c : Char} (h : isDigit c = true) : c.toNat - 48 < 10 := by
    simp only [isDigit, Bool.and_eq_true, decide_eq_true_eq, Char.le_def, UInt32.le_iff_toNat_le] at h
    have : c.toNat ≤ 57 := h.2
    omega
  induction ds using List.reverseRecOn with
  | nil =>
    have : digitsValue [d] = d.toNat - 48 := by simp [digitsValue]
    rw [this, Nat.toDigits_of_lt_base (value first), digitChar_of_isDigit first]
  | append_singleton ds c ih =>
    rw [List.all_append, Bool.and_eq_true] at digits
    have last : isDigit c = true := by simpa using digits.2
    have before := ih digits.1
    have pos : 0 < digitsValue (d :: ds) := by
      rcases Nat.eq_zero_or_pos (digitsValue (d :: ds)) with zero | pos
      · rw [zero, Nat.toDigits_zero, List.cons.injEq] at before
        rw [← before.1] at low
        exact absurd low (by decide)
      · exact pos
    have split : digitsValue (d :: (ds ++ [c])) = 10 * digitsValue (d :: ds) + (c.toNat - 48) := by
      simp [digitsValue, List.foldl_append]
    rw [split, ← Nat.toDigits_append_toDigits (by decide) pos (value last), before,
      Nat.toDigits_of_lt_base (value last), digitChar_of_isDigit last]
    rfl

end Decimal

namespace Handle

theorem elseIf_toList (n : Nat) :
    (elseIf n).toList = ['e', 'l', 's', 'e', '_', 'i', 'f', '_'] ++ Nat.toDigits 10 n := by
  simp [elseIf, Decimal.writeNat]

/-- What has a number is the else-if handle with the number. -/
theorem eq_of_elseIf? {handle : String} {n : Nat} (h : elseIf? handle = some n) :
    1 ≤ n ∧ handle = elseIf n := by
  unfold elseIf? at h
  split at h
  · next d ds chars =>
    split at h
    · next range =>
      simp only [Bool.and_eq_true, decide_eq_true_eq] at range
      obtain ⟨⟨low, high⟩, digits⟩ := range
      have written := Decimal.toDigits_digitsValue low high digits
      rw [Option.some.injEq] at h
      subst h
      constructor
      · rcases Nat.eq_zero_or_pos (Decimal.digitsValue (d :: ds)) with zero | pos
        · rw [zero, Nat.toDigits_zero, List.cons.injEq] at written
          rw [← written.1] at low
          exact absurd low (by decide)
        · exact pos
      · apply String.toList_injective
        rw [chars, elseIf_toList, written]
        rfl
    · cases h
  · cases h

theorem ifBranch_ne_elseBranch : ifBranch ≠ elseBranch := by decide

theorem elseIf_ne_of_head? {s : String} (other : s.toList.head? ≠ some 'e') (n : Nat) : elseIf n ≠ s := by
  rintro rfl
  rw [elseIf_toList] at other
  exact other rfl

theorem elseIf_ne_ifBranch (n : Nat) : elseIf n ≠ ifBranch := elseIf_ne_of_head? (by decide) n

theorem elseIf_ne_elseBranch (n : Nat) : elseIf n ≠ elseBranch := by
  intro same
  have chars := congrArg String.toList same
  rw [elseIf_toList] at chars
  simp [elseBranch] at chars

/-- There are no blanks around an else-if handle. -/
theorem trim_elseIf (n : Nat) : trim (elseIf n) = elseIf n := by
  rw [trim, Text.trimBy_eq_self, String.ofList_toList]
  · intro c first
    rw [elseIf_toList, List.cons_append, List.head?_cons, Option.some.injEq] at first
    rw [← first]
    decide
  · intro c last
    rw [elseIf_toList, List.getLast?_append_of_ne_nil _ Nat.toDigits_ne_nil] at last
    have digit := Decimal.isDigit_of_mem_toDigits (List.mem_of_getLast? last)
    have range : 48 ≤ c.toNat ∧ c.toNat ≤ 57 := by
      simpa [Decimal.isDigit, Char.le_def, UInt32.le_iff_toNat_le] using digit
    simp [Text.isBlank, Text.isSpace]
    omega

/-! ## Canonical handles -/

/-- The else-if handles with the numbers from one to a number. -/
def elseIfs (count : Nat) : List String := (List.range count).map fun k => elseIf (k + 1)

/-- Handles are canonical if the first is that of the first branch, and the others are the else-if
handles with the numbers from one on, in any order. -/
def Canonical (handles : List String) : Prop :=
  ∃ others, handles = ifBranch :: others ∧ others.Perm (elseIfs others.length)

theorem mem_elseIfs {count : Nat} {handle : String} :
    handle ∈ elseIfs count ↔ ∃ n, 1 ≤ n ∧ n ≤ count ∧ handle = elseIf n := by
  simp only [elseIfs, List.mem_map, List.mem_range]
  constructor
  · rintro ⟨k, lt, rfl⟩
    exact ⟨k + 1, by omega, by omega, rfl⟩
  · rintro ⟨n, low, high, rfl⟩
    exact ⟨n - 1, by omega, by rw [Nat.sub_add_cancel low]⟩

theorem nodup_elseIfs (count : Nat) : (elseIfs count).Nodup := by
  refine List.Nodup.map ?_ List.nodup_range
  intro i j same
  have := elseIf_inj _ _ same
  omega

theorem length_elseIfs (count : Nat) : (elseIfs count).length = count := by simp [elseIfs]

/-- As many different else-if handles as there are numbers are all of them. -/
theorem canonical_cons {others : List String} (distinct : others.Nodup)
    (known : ∀ handle ∈ others, handle ∈ elseIfs others.length) :
    Canonical (ifBranch :: others) := by
  refine ⟨others, rfl, (List.subperm_of_subset distinct known).perm_of_length_le ?_⟩
  simp [length_elseIfs]

theorem Canonical.mem_elseIfs {others : List String} (h : Canonical (ifBranch :: others)) :
    ∀ handle ∈ others, handle ∈ elseIfs others.length := by
  obtain ⟨_, same, perm⟩ := h
  cases same
  exact fun handle mem => perm.subset mem

theorem Canonical.ne_nil {handles : List String} (h : Canonical handles) : handles ≠ [] := by
  obtain ⟨others, rfl, -⟩ := h
  exact List.cons_ne_nil _ _

theorem Canonical.nodup {handles : List String} (h : Canonical handles) : handles.Nodup := by
  obtain ⟨others, rfl, perm⟩ := h
  refine List.nodup_cons.2 ⟨fun mem => ?_, perm.nodup_iff.2 (nodup_elseIfs _)⟩
  obtain ⟨n, -, -, same⟩ := Handle.mem_elseIfs.1 (perm.subset mem)
  exact elseIf_ne_ifBranch n same.symm

/-- A canonical handle is that of the first branch, or it has a number. -/
theorem Canonical.known {handles : List String} (h : Canonical handles) {handle : String}
    (mem : handle ∈ handles) : handle = ifBranch ∨ ∃ n, 1 ≤ n ∧ handle = elseIf n := by
  obtain ⟨others, rfl, perm⟩ := h
  refine (List.mem_cons.1 mem).imp_right fun later => ?_
  obtain ⟨n, low, -, same⟩ := Handle.mem_elseIfs.1 (perm.subset later)
  exact ⟨n, low, same⟩

theorem Canonical.elseBranch_not_mem {handles : List String} (h : Canonical handles) :
    elseBranch ∉ handles := by
  intro mem
  rcases h.known mem with first | ⟨n, -, later⟩
  · exact ifBranch_ne_elseBranch first.symm
  · exact elseIf_ne_elseBranch n later.symm

theorem Canonical.trim {handles : List String} (h : Canonical handles) {handle : String}
    (mem : handle ∈ handles) : Text.trim handle = handle := by
  rcases h.known mem with rfl | ⟨n, -, rfl⟩
  · decide +kernel
  · exact trim_elseIf n

end Handle

namespace Condition

/-! ## Handles that are granted -/

/-- Where there are more numbers than handles are taken, a new one is granted among them. -/
theorem grantHandle_mem {total : Nat} {taken : List String} (room : taken.length + 1 < total)
    (asked : String) :
    grantHandle total (Handle.ifBranch :: taken) asked ∈ Handle.elseIfs (total - 1)
      ∧ grantHandle total (Handle.ifBranch :: taken) asked ∉ Handle.ifBranch :: taken := by
  have least : Handle.elseIf (Handle.leastFree (Handle.ifBranch :: taken)) ∈ Handle.elseIfs (total - 1)
      ∧ Handle.elseIf (Handle.leastFree (Handle.ifBranch :: taken)) ∉ Handle.ifBranch :: taken := by
    have low : 1 ≤ Handle.leastFree (Handle.ifBranch :: taken) := Text.le_freeNumber Handle.elseIf_inj
    refine ⟨Handle.mem_elseIfs.2 ⟨Handle.leastFree _, low, ?_, rfl⟩,
      Handle.elseIf_leastFree_not_mem _⟩
    -- all lesser numbers are taken, so they are no more than there are taken handles
    have below : ∀ handle ∈ Handle.elseIfs (Handle.leastFree (Handle.ifBranch :: taken) - 1),
        handle ∈ taken := by
      intro handle mem
      obtain ⟨n, low, high, rfl⟩ := Handle.mem_elseIfs.1 mem
      have lt : n < Handle.leastFree (Handle.ifBranch :: taken) := by omega
      have used := Text.mem_of_lt_freeNumber Handle.elseIf_inj low lt
      rcases List.mem_cons.1 used with same | later
      · exact absurd same (Handle.elseIf_ne_ifBranch n)
      · exact later
    have count := Text.length_le_of_subset (Handle.nodup_elseIfs _) below
    rw [Handle.length_elseIfs] at count
    omega
  unfold grantHandle
  split
  · next n number =>
    split
    · next free =>
      simp only [Bool.and_eq_true, decide_eq_true_eq, Bool.not_eq_true', List.contains_eq_mem,
        decide_eq_false_iff_not] at free
      obtain ⟨low, same⟩ := Handle.eq_of_elseIf? number
      exact ⟨Handle.mem_elseIfs.2 ⟨n, low, by omega, same⟩, free.2⟩
    · exact least
  · exact least

/-- The handles that are granted to later clauses are different ones with numbers in the range. -/
theorem grantHandles_mem {total : Nat} {taken : List String} {cs : List Clause}
    (room : taken.length + cs.length < total) :
    ((grantHandles total (Handle.ifBranch :: taken) cs).map (·.id)).Nodup
      ∧ ∀ handle ∈ (grantHandles total (Handle.ifBranch :: taken) cs).map (·.id),
          handle ∈ Handle.elseIfs (total - 1) ∧ handle ∉ Handle.ifBranch :: taken := by
  induction cs generalizing taken with
  | nil => simp [grantHandles]
  | cons c cs ih =>
    rw [List.length_cons] at room
    obtain ⟨range, free⟩ := @grantHandle_mem total taken (by omega) c.id
    have more : (taken ++ [grantHandle total (Handle.ifBranch :: taken) c.id]).length + cs.length
        < total := by
      rw [List.length_append, List.length_singleton]
      omega
    obtain ⟨distinct, known⟩ := ih more
    rw [grantHandles]
    simp only [List.map_cons, List.nodup_cons, List.forall_mem_cons]
    refine ⟨⟨fun again => ?_, distinct⟩, ⟨range, free⟩, fun handle mem => ?_⟩
    · exact (known _ again).2 (by simp)
    · obtain ⟨inRange, new⟩ := known handle mem
      exact ⟨inRange, fun used => new (List.mem_append_left _ used)⟩

/-- The clauses with canonical handles have canonical handles. -/
theorem canonical_withHandles {cs : List Clause} (nonempty : cs ≠ []) :
    Handle.Canonical ((withHandles cs).map (·.id)) := by
  cases cs with
  | nil => exact absurd rfl nonempty
  | cons c cs =>
    obtain ⟨distinct, known⟩ :=
      @grantHandles_mem (cs.length + 1) [] cs (by simp)
    refine Handle.canonical_cons distinct fun handle mem => ?_
    rw [List.length_map, length_grantHandles]
    exact (known handle mem).1

/-- Whatever is stored, its clauses have canonical handles. -/
theorem canonical_canonical (d : Document) : Handle.Canonical ((canonical d).map (·.id)) :=
  canonical_withHandles (readClauses_ne_nil d)

/-- A handle that is free and in the range is granted. -/
theorem grantHandle_eq_self {total : Nat} {used : List String} {asked : String}
    (range : asked ∈ Handle.elseIfs (total - 1)) (free : asked ∉ used) :
    grantHandle total used asked = asked := by
  obtain ⟨n, low, high, rfl⟩ := Handle.mem_elseIfs.1 range
  rw [grantHandle, Handle.elseIf?_elseIf low]
  have lt : n < total := by omega
  simp [lt, free]

theorem grantHandles_eq_self {total : Nat} {used : List String} {cs : List Clause}
    (distinct : (cs.map (·.id)).Nodup)
    (known : ∀ handle ∈ cs.map (·.id), handle ∈ Handle.elseIfs (total - 1) ∧ handle ∉ used) :
    grantHandles total used cs = cs := by
  induction cs generalizing used with
  | nil => rfl
  | cons c cs ih =>
    rw [List.map_cons, List.nodup_cons] at distinct
    rw [List.map_cons, List.forall_mem_cons] at known
    obtain ⟨⟨range, free⟩, later⟩ := known
    rw [grantHandles]
    simp only [grantHandle_eq_self range free, List.cons.injEq, true_and]
    refine ih distinct.2 fun handle mem => ⟨(later handle mem).1, ?_⟩
    rw [List.mem_append, List.mem_singleton, not_or]
    exact ⟨(later handle mem).2, fun same => distinct.1 (same ▸ mem)⟩

/-- Clauses with canonical handles stay as they are. -/
theorem withHandles_eq_self {cs : List Clause} (h : Handle.Canonical (cs.map (·.id))) :
    withHandles cs = cs := by
  cases cs with
  | nil => rfl
  | cons c cs =>
    have distinct := h.nodup
    rw [List.map_cons] at h distinct
    have first : c.id = Handle.ifBranch := by
      obtain ⟨_, same, -⟩ := h
      exact (List.cons.inj same).1
    rw [first] at h distinct
    obtain ⟨new, distinct⟩ := List.nodup_cons.1 distinct
    rw [withHandles, ← first]
    congr 1
    refine grantHandles_eq_self distinct fun handle mem => ⟨?_, ?_⟩
    · simpa using h.mem_elseIfs handle mem
    · rw [List.mem_singleton, first]
      exact fun same => new (same ▸ mem)

/-- Canonical handles stay as they are. -/
theorem map_id_withHandles {cs : List Clause} (h : Handle.Canonical (cs.map (·.id))) :
    (withHandles cs).map (·.id) = cs.map (·.id) := by
  rw [withHandles_eq_self h]

/-! ## Branches -/

variable {clauses : List Clause} {b : Branch}

theorem map_handle_clauseBranches (start : Nat) (cs : List Clause) :
    (clauseBranches start cs).map (·.handle) = cs.map (·.id) := by
  induction cs generalizing start with
  | nil => rfl
  | cons c cs ih =>
    rw [clauseBranches, List.map_cons, ih]
    rfl

theorem map_handle_branches (clauses : List Clause) :
    (branches clauses).map (·.handle) = clauses.map (·.id) ++ [Handle.elseBranch] := by
  rw [branches, List.map_append, map_handle_clauseBranches]
  rfl

theorem mem_clauseBranches {start : Nat} {cs : List Clause} (mem : b ∈ clauseBranches start cs) :
    ∃ c ∈ cs, ∃ position, b = .ofClause position c := by
  induction cs generalizing start with
  | nil => cases mem
  | cons c cs ih =>
    rcases List.mem_cons.1 mem with rfl | later
    · exact ⟨c, List.mem_cons_self, start, rfl⟩
    · obtain ⟨d, mem, made⟩ := ih later
      exact ⟨d, List.mem_cons_of_mem c mem, made⟩

/-- A branch is one of a clause, or the last one. -/
theorem mem_branches (mem : b ∈ branches clauses) :
    (∃ c ∈ clauses, ∃ position, b = .ofClause position c) ∨ b = .fallThrough :=
  (List.mem_append.1 mem).imp mem_clauseBranches List.mem_singleton.1

/-- Exactly the handles of the clauses and the last branch are accepted. -/
theorem accepts_iff {door : String} :
    accepts clauses door = true ↔ door ∈ clauses.map (·.id) ∨ door = Handle.elseBranch := by
  have listed : accepts clauses door = true ↔ door ∈ (branches clauses).map (·.handle) := by
    simp only [accepts, List.any_eq_true, beq_iff_eq, List.mem_map]
  rw [listed, map_handle_branches, List.mem_append, List.mem_singleton]

end Condition

end Journey
