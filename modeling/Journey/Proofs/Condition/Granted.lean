import Journey.Proofs.Condition.Legible

/-!
# Journey.Proofs.Condition.Granted -- which handles are kept and which are new

A later clause is granted the handle it asks for exactly if that is an else-if handle with a number in the
range which no clause before it was granted (`grantHandle_eq_self_iff`): whatever it is granted has a
number in the range and is free, so it cannot be what was asked for unless that is so, too.  What a clause
is granted depends on those before it only by the handles they were granted (`getElem?_grantHandles`).

Where the handles are canonical, the least free number is the number of clauses (`Canonical.leastFree_eq`),
so the next clause takes the place after the last one and the handles stay canonical
(`Canonical.append_next`).

All this is said of clauses that were read, and they are read exactly if the stored value is legible.  Main
statement: `granted_normalize`.
-/

namespace Journey

set_option autoImplicit false

open Journey.Text (trim)

namespace Handle

theorem elseIfs_succ (count : Nat) : elseIfs (count + 1) = elseIfs count ++ [elseIf (count + 1)] := by
  simp [elseIfs, List.range_succ]

variable {handles : List String}

/-- Of canonical handles, the least number that is free is how many they are. -/
theorem Canonical.leastFree_eq (h : Canonical handles) : leastFree handles = handles.length := by
  have known (n : Nat) (low : 1 ≤ n) : elseIf n ∈ handles ↔ n < handles.length := by
    obtain ⟨others, rfl, perm⟩ := h
    rw [List.mem_cons, perm.mem_iff, Handle.mem_elseIfs, List.length_cons]
    constructor
    · rintro (same | ⟨m, -, high, same⟩)
      · exact absurd same (elseIf_ne_ifBranch n)
      · rw [elseIf_inj n m same]
        omega
    · exact fun lt => .inr ⟨n, low, by omega, rfl⟩
  have low : 1 ≤ leastFree handles := Text.le_freeNumber elseIf_inj
  have positive : 1 ≤ handles.length := List.length_pos_of_ne_nil h.ne_nil
  apply Nat.le_antisymm
  · -- a greater number would leave that of the length taken
    by_contra above
    have taken := Text.mem_of_lt_freeNumber elseIf_inj positive (Nat.lt_of_not_le above)
    exact absurd ((known _ positive).1 taken) (Nat.lt_irrefl _)
  · by_contra below
    exact elseIf_leastFree_not_mem handles ((known _ low).2 (Nat.lt_of_not_le below))

/-- Canonical handles stay canonical with the least free one after them. -/
theorem Canonical.append_next (h : Canonical handles) :
    Canonical (handles ++ [elseIf (leastFree handles)]) := by
  rw [h.leastFree_eq]
  obtain ⟨others, rfl, perm⟩ := h
  refine ⟨others ++ [elseIf (others.length + 1)], rfl, ?_⟩
  rw [List.length_append, List.length_singleton, elseIfs_succ]
  exact perm.append_right _

end Handle

namespace Condition

/-- What is asked for is granted exactly if it is in the range and free. -/
theorem grantHandle_eq_self_iff {total : Nat} {taken : List String} (room : taken.length + 1 < total)
    {asked : String} :
    grantHandle total (Handle.ifBranch :: taken) asked = asked ↔
      asked ∈ Handle.elseIfs (total - 1) ∧ asked ∉ Handle.ifBranch :: taken := by
  constructor
  · intro same
    have granted := grantHandle_mem room asked
    rwa [same] at granted
  · rintro ⟨range, free⟩
    exact grantHandle_eq_self range free

/-- The clause at a position gets what it is granted after those before it. -/
theorem getElem?_grantHandles (total : Nat) (used : List String) (cs : List Clause) (i : Nat) :
    (grantHandles total used cs)[i]?
      = cs[i]?.map fun c =>
          { c with
            id := grantHandle total (used ++ ((grantHandles total used cs).take i).map (·.id)) c.id } := by
  induction cs generalizing used i with
  | nil => rfl
  | cons c cs ih =>
    rw [grantHandles]
    cases i with
    | zero => simp
    | succ i => simpa using ih (used ++ [grantHandle total used c.id]) i

/-- A later clause keeps its handle exactly if it is in the range and no clause before it has it. -/
theorem getElem?_withHandles_iff {cs : List Clause} {i : Nat} {c : Clause} (later : 1 ≤ i)
    (found : cs[i]? = some c) :
    (withHandles cs)[i]?.map (·.id) = some c.id ↔
      c.id ∈ Handle.elseIfs (cs.length - 1) ∧ c.id ∉ ((withHandles cs).take i).map (·.id) := by
  obtain ⟨i, rfl⟩ := Nat.exists_eq_add_of_le' later
  cases cs with
  | nil => cases found
  | cons first cs =>
    rw [List.getElem?_cons_succ] at found
    have lt : i < cs.length := (List.getElem?_eq_some_iff.1 found).1
    have room : (((grantHandles (cs.length + 1) [Handle.ifBranch] cs).take i).map (·.id)).length + 1
        < cs.length + 1 := by
      rw [List.length_map, List.length_take, length_grantHandles]
      omega
    rw [withHandles, List.getElem?_cons_succ, getElem?_grantHandles, found, List.take_succ_cons,
      List.map_cons]
    simpa using grantHandle_eq_self_iff room

/-! ## The clauses of stored values -/

/-- The handle that the clause at a position of a stored list asks for. -/
def asked? (d : Document) (position : Nat) : Option String :=
  (Fields.getD d.fields "clauses").items[position]?.map fun item =>
    trim (Fields.getD item.fields "id").shown

/-- A stored value has as many clauses as its list, and one if the list is empty or there is none. -/
theorem length_readClauses (d : Document) :
    (readClauses d).length = max 1 (Fields.getD d.fields "clauses").items.length := by
  unfold readClauses
  split
  · next void => rw [void]; rfl
  · next c cs listed =>
    rw [listed, List.length_cons, List.length_cons, List.length_map]
    omega

theorem getElem?_readClauses {d : Document} {i : Nat} {handle : String} (asked : asked? d i = some handle) :
    ∃ c, (readClauses d)[i]? = some c ∧ c.id = handle := by
  obtain ⟨item, found, rfl⟩ := Option.map_eq_some_iff.1 asked
  refine ⟨readClause item, ?_, rfl⟩
  unfold readClauses
  split
  · next void =>
    rw [void] at found
    cases found
  · next c cs listed =>
    rw [listed] at found
    rw [← List.map_cons (f := readClause), List.getElem?_map, found]
    rfl

/-- Written clauses ask for the handles that they have. -/
theorem asked?_row {c : ConditionConfig} (regular : c.Regular) (position : Nat) :
    asked? (.object (c.row Key.written .kept)) position
      = c.clauses[position]?.map fun clause => trim clause.id := by
  rw [asked?, Document.fields_object, getD_clauses_row regular.clauses, Document.items_list, List.getElem?_map]
  cases found : c.clauses[position]? with
  | none => rfl
  | some clause => exact congrArg some (id_readClause_row (regular.ids clause (List.mem_of_getElem? found)))

/-- A later clause keeps the handle it asks for exactly if that is an else-if handle with a number below the
number of clauses which no clause before it has. -/
theorem getElem?_canonical_iff {d : Document} {i : Nat} {handle : String} (later : 1 ≤ i)
    (asked : asked? d i = some handle) :
    (canonical d)[i]?.map (·.id) = some handle ↔
      (∃ k, 1 ≤ k ∧ k < (canonical d).length ∧ handle = Handle.elseIf k)
        ∧ handle ∉ ((canonical d).take i).map (·.id) := by
  obtain ⟨c, found, rfl⟩ := getElem?_readClauses asked
  have count : (canonical d).length = (readClauses d).length := length_canonical d
  have given : 1 ≤ (readClauses d).length := List.length_pos_of_ne_nil (readClauses_ne_nil d)
  rw [canonical, getElem?_withHandles_iff later found, Handle.mem_elseIfs, ← canonical, count]
  refine and_congr_left fun _ => exists_congr fun k => and_congr_right fun _ => and_congr_left fun _ => ?_
  omega

/-- Canonical clauses with the next one after them. -/
def withNext (cs : List Clause) : ConditionConfig := { clauses := cs ++ [nextClause cs] }

/-- With the next clause the handles stay canonical. -/
theorem canonical_withNext {cs : List Clause} (handles : Handle.Canonical (cs.map (·.id))) :
    Handle.Canonical ((withNext cs).clauses.map (·.id)) := by
  have next : (nextClause cs).id = Handle.elseIf (Handle.leastFree (cs.map (·.id))) := by
    have low : 1 ≤ Handle.leastFree (cs.map (·.id)) := Text.le_freeNumber Handle.elseIf_inj
    rw [nextClause, newClause, Handle.ofClause, if_neg (Nat.ne_of_gt low)]
  rw [withNext, List.map_append, List.map_singleton, next]
  exact handles.append_next

theorem plain_of_mem_withNext {d : Document} {c : Clause} (mem : c ∈ (withNext (canonical d)).clauses) :
    c.extra = [] ∧ trim c.propertyKey = c.propertyKey := by
  rcases List.mem_append.1 mem with old | new
  · exact plain_of_mem_canonical old
  · rw [List.mem_singleton.1 new]
    exact ⟨rfl, show trim "" = "" by decide +kernel⟩

/-- With the next clause, canonical clauses are read as they are unless there are too many of them. -/
theorem normalize_withNext_iff (d : Document) :
    (withNext (canonical d)).normalize = .ok (withNext (canonical d)).clauses
      ↔ (canonical d).length < Decimal.leastLong := by
  have handles := canonical_withNext (canonical_canonical d)
  have given : canonical d ≠ [] := List.map_eq_nil_iff.not.1 (canonical_canonical d).ne_nil
  have count : (withNext (canonical d)).clauses.tail.length = (canonical d).length := by
    rw [withNext, List.tail_append_of_ne_nil given, List.length_append, List.length_tail, List.length_singleton,
      Nat.sub_add_cancel (List.length_pos_of_ne_nil given)]
  have same : (withNext (canonical d)).canonical = (withNext (canonical d)).clauses :=
    ConditionConfig.canonical_eq_self handles fun _ mem => plain_of_mem_withNext mem
  rw [ConditionConfig.normalize_eq_ok_iff, and_iff_left same, ← count]
  exact ConditionConfig.legible_of_canonical handles fun _ mem => (plain_of_mem_withNext mem).1

/-- A stored value is read exactly if it is legible.  It then has as many clauses as its list, one if there is
none.  The first is on the handle `if`, the others are on the else-if handles with the numbers from one on, each
once; a later clause keeps the handle it asks for exactly if that is an else-if handle with a number below the
number of clauses which no clause before it has.  These clauses are read as they are, and so they are with the
next clause after them, as long as their number can be written. -/
theorem granted_normalize (d : Document) :
    ((∃ cs, normalize d = .ok cs) ↔ Legible d)
      ∧ ∀ cs, normalize d = .ok cs →
          cs.length = max 1 (Fields.getD d.fields "clauses").items.length
            ∧ Handle.Canonical (cs.map (·.id))
            ∧ (∀ i handle, 1 ≤ i → asked? d i = some handle →
                (cs[i]?.map (·.id) = some handle ↔
                  (∃ k, 1 ≤ k ∧ k < cs.length ∧ handle = Handle.elseIf k)
                    ∧ handle ∉ (cs.take i).map (·.id)))
            ∧ ({ clauses := cs } : ConditionConfig).normalize = .ok cs
            ∧ ((withNext cs).normalize = .ok (withNext cs).clauses
                ↔ cs.length < Decimal.leastLong) := by
  refine ⟨exists_normalize_iff, fun cs read => ?_⟩
  obtain ⟨legible, rfl⟩ := normalize_eq_ok_iff.1 read
  refine ⟨by rw [length_canonical, length_readClauses], canonical_canonical d,
    fun i handle later asked => getElem?_canonical_iff later asked, ?_, normalize_withNext_iff d⟩
  exact ConditionConfig.normalize_eq_ok_iff.2
    ⟨ConditionConfig.legible_canonical legible, ConditionConfig.canonical_canonical d⟩

/-- A list whose second and third clause ask for one handle, and whose fourth is no clause. -/
def crowded : Document :=
  .object [("clauses", .list [.object [("id", .text "else_if_1")], .object [("id", .text " else_if_2 ")],
    .object [("id", .text "else_if_2")], .text "none"])]

/-- The second clause of the list keeps the handle, the third does not. -/
theorem granted_normalize_crowded :
    asked? crowded 1 = some "else_if_2" ∧ asked? crowded 2 = some "else_if_2"
      ∧ ∃ cs, normalize crowded = .ok cs ∧ cs[1]?.map (·.id) = some "else_if_2"
          ∧ cs[2]?.map (·.id) ≠ some "else_if_2" := by
  have second : asked? crowded 1 = some "else_if_2" := by decide +kernel
  have third : asked? crowded 2 = some "else_if_2" := by decide +kernel
  have legible : Legible crowded := by decide +kernel
  obtain ⟨reads, granted⟩ := granted_normalize crowded
  obtain ⟨cs, read⟩ := reads.2 legible
  obtain ⟨-, -, keeps, -⟩ := granted cs read
  obtain rfl := (normalize_eq_ok_iff.1 read).2
  refine ⟨second, third, _, read, (keeps 1 _ (by decide) second).2 ⟨⟨2, ?_⟩, ?_⟩, fun kept => ?_⟩
  · decide +kernel
  · decide +kernel
  · exact absurd ((keeps 2 _ (by decide) third).1 kept).2 (by decide +kernel)

/-- A list whose second clause asks for the least handle that cannot be read has no clauses at all. -/
theorem not_normalize_overlong :
    asked? (.object (ConditionConfig.overlong.row Key.written .kept)) 1 = some Handle.overlong
      ∧ normalize (.object (ConditionConfig.overlong.row Key.written .kept))
          = .error (.read (Decimal.mostDigits + 1)) := by
  have regular : ConditionConfig.overlong.Regular := ⟨rfl, by simp [ConditionConfig.overlong, Clause.Regular]⟩
  refine ⟨?_, ConditionConfig.normalize_overlong⟩
  rw [asked?_row regular]
  exact congrArg some Handle.trim_overlong

end Condition

end Journey
