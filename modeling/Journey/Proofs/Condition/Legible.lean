import Journey.Node.Catalogue
import Journey.Proofs.Config.Reloaded

/-!
# Journey.Proofs.Condition.Legible -- settings that can be read once more

A clause that was read holds only texts, so when its settings are written and read again nothing in them is too
long to be shown.  What is converted then are the handles of the later clauses and their number
(`succeed_conversions_iff`).  Canonical handles have numbers below the number of clauses, so of those nothing
but this number matters (`legible_of_canonical`), and what was legible once is legible again, as it was read
(`legible_canonical`).

A handle may well have more digits than can be read: nothing bounds the number of an else-if handle that a clause
asks for.  `Handle.overlong` is the least one, and the settings `ConditionConfig.overlong` ask for it.
-/

namespace Journey

set_option autoImplicit false

open Journey.Text (trim)

namespace Handle

variable {handles : List String} {handle : String} {n : Nat}

/-- A handle is short if the number it has, if it has one, can be read. -/
def Short (handle : String) : Prop := ∀ n, elseIf? handle = some n → n < Decimal.leastLong

theorem failure?_eq_none_iff : (Conversion.handle handle).failure? = none ↔ Short handle :=
  Conversion.failure?_handle_eq_none

instance (handle : String) : Decidable (Short handle) :=
  decidable_of_iff _ failure?_eq_none_iff

theorem short_elseIf_iff (low : 1 ≤ n) : Short (elseIf n) ↔ n < Decimal.leastLong := by
  simp [Short, elseIf?_elseIf low]

/-- Canonical handles are short unless there are too many of them. -/
theorem Canonical.short (h : Canonical handles) (few : handles.length ≤ Decimal.leastLong)
    (mem : handle ∈ handles) : Short handle := by
  obtain ⟨others, rfl, perm⟩ := h
  rcases List.mem_cons.1 mem with rfl | later
  · exact fun n numbered => by cases numbered
  · obtain ⟨n, low, high, rfl⟩ := Handle.mem_elseIfs.1 (perm.subset later)
    rw [List.length_cons] at few
    exact (short_elseIf_iff low).2 (by omega)

/-- The least else-if handle whose number cannot be read. -/
@[irreducible] def overlong : String := elseIf Decimal.leastLong

theorem elseIf?_overlong : elseIf? overlong = some Decimal.leastLong := by
  rw [overlong]
  exact elseIf?_elseIf Decimal.one_le_leastLong

theorem trim_overlong : trim overlong = overlong := by
  rw [overlong]
  exact trim_elseIf _

theorem not_short_overlong : ¬ Short overlong :=
  fun short => Nat.lt_irrefl _ (short _ elseIf?_overlong)

theorem digitCount_pow (k : Nat) : Decimal.digitCount (Nat.pow 10 k) = k + 1 := by
  have above : Decimal.digitCount (Nat.pow 10 k) ≤ k + 1 :=
    (Decimal.digitCount_le_iff (Nat.succ_pos k)).2 (Nat.pow_lt_pow_succ (by decide))
  rcases Nat.eq_zero_or_pos k with rfl | pos
  · rfl
  · have below : ¬ Decimal.digitCount (Nat.pow 10 k) ≤ k := by
      rw [Decimal.digitCount_le_iff pos]
      exact Nat.lt_irrefl _
    omega

theorem digitCount_leastLong : Decimal.digitCount Decimal.leastLong = Decimal.mostDigits + 1 := by
  unfold Decimal.leastLong
  exact digitCount_pow _

theorem failure?_overlong :
    (Conversion.handle overlong).failure? = some (.read (Decimal.mostDigits + 1)) := by
  have long : Decimal.isLong Decimal.leastLong = true := Decimal.isLong_iff.2 (Nat.le_refl _)
  rw [Conversion.failure?, elseIf?_overlong, Option.filter_some, if_pos long, Option.map_some, digitCount_leastLong]

end Handle

/-! ## Settings that are written -/

namespace Condition

/-- A clause without foreign members holds only texts. -/
theorem clauseTexts_row {c : Clause} (plain : c.extra = []) :
    clauseTexts (.object (c.row Key.written))
      = [.text c.id, .text c.rule.name, .text c.comparator.name, .text c.propertyKey, .text c.value] := by
  obtain ⟨id, rule, propertyKey, comparator, value, extra⟩ := c
  obtain rfl : extra = [] := plain
  simp [clauseTexts, testTexts, firstGiven, Clause.row, Fields.overlay, Fields.getD, Fields.get?_cons, Key.word,
    Clause.idKey, Clause.ruleKey, Clause.propertyKeyKey, Clause.comparatorKey, Clause.valueKey, Document.isNull]

theorem testTexts_congr {row other : Fields} (same : Fields.getD row = Fields.getD other) :
    testTexts row = testTexts other := by
  simp only [testTexts, firstGiven, same]

/-- Leaving out what holds nothing is not seen in what is shown of a clause. -/
theorem clauseTexts_members (c : Clause) :
    clauseTexts (Nulls.dropped.object (c.row Key.written)) = clauseTexts (.object (c.row Key.written)) := by
  have same := getD_members_row c
  rw [Nulls.object, clauseTexts, clauseTexts, Document.fields_object, Document.fields_object, same,
    testTexts_congr same]

/-- What is shown of written settings is what is shown of their clauses. -/
theorem texts_row {c : ConditionConfig}
    (regular : Fields.get? c.extra ConditionConfig.clausesKey.written = none) (given : c.clauses ≠ []) :
    texts (.object (c.row Key.written .kept))
      = c.clauses.flatMap fun clause => clauseTexts (.object (clause.row Key.written)) := by
  cases clauses : c.clauses with
  | nil => exact absurd clauses given
  | cons d ds => simp [texts, getD_clauses_row regular, clauses, List.flatMap_map]

end Condition

namespace ConditionConfig

section Plain

variable {c : ConditionConfig} (regular : Fields.get? c.extra clausesKey.written = none)
  (plain : ∀ clause ∈ c.clauses, clause.extra = []) (given : c.clauses ≠ [])
include regular plain given

/-- Whatever is shown of written clauses is a text. -/
theorem hasLong_of_mem_texts :
    ∀ t ∈ Condition.texts (.object (c.row Key.written .kept)), t.hasLong = false := by
  rw [Condition.texts_row regular given, List.forall_mem_flatMap]
  intro clause mem
  simp [Condition.clauseTexts_row (plain clause mem)]

/-- The handles of written clauses are read without the blanks around them. -/
theorem map_id_readClauses :
    (Condition.readClauses (.object (c.row Key.written .kept))).map (·.id)
      = c.clauses.map fun clause => trim clause.id := by
  rw [Condition.readClauses_row regular given, List.map_map]
  refine List.map_congr_left fun clause mem => ?_
  rw [Function.comp_apply, Condition.readClause_row (plain clause mem)]

/-- Of written clauses, the handles of the later ones are read and their number is written. -/
theorem succeed_conversions_iff :
    Conversion.Succeed c.conversions ↔
      (∀ clause ∈ c.clauses.tail, Handle.Short (trim clause.id))
        ∧ c.clauses.tail.length < Decimal.leastLong := by
  have read := map_id_readClauses regular plain given
  have count := congrArg List.length read
  have handles (p : String → Prop) :
      (∀ clause ∈ (Condition.readClauses (.object (c.row Key.written .kept))).tail, p clause.id)
        ↔ ∀ clause ∈ c.clauses.tail, p (trim clause.id) := by
    rw [← List.forall_mem_map (f := Clause.id), List.map_tail, read, ← List.map_tail, List.forall_mem_map]
  rw [List.length_map, List.length_map] at count
  rw [conversions, ← Condition.Legible, Condition.legible_iff,
    and_iff_right (hasLong_of_mem_texts regular plain given), List.length_tail, count, ← List.length_tail]
  exact and_congr_left fun _ => handles Handle.Short

end Plain

/-- Leaving out what holds nothing is not seen when settings are read. -/
theorem conversions_members {c : ConditionConfig} (regular : Fields.get? c.extra clausesKey.written = none) :
    Condition.conversions (.object (Nulls.dropped.members (c.row Key.written .dropped))) = c.conversions := by
  have texts : Condition.texts (.object (Nulls.dropped.members (c.row Key.written .dropped)))
      = Condition.texts (.object (c.row Key.written .kept)) := by
    by_cases void : c.clauses = []
    · have look := getD_members_of_nil void
      rw [Condition.texts, Condition.texts, Document.fields_object, Document.fields_object, look,
        Condition.testTexts_congr look]
    · rw [Condition.texts_row regular void, Condition.texts, Document.fields_object, getD_clauses_members regular]
      cases clauses : c.clauses with
      | nil => exact absurd clauses void
      | cons first rest =>
        simp only [Document.items_list, List.map_cons, List.flatMap_cons, List.flatMap_map,
          Condition.clauseTexts_members]
  rw [conversions, Condition.conversions, Condition.conversions, texts, readClauses_members regular]

/-- Clauses with canonical handles can be read again unless there are too many of them. -/
theorem legible_of_canonical {clauses : List Clause} (handles : Handle.Canonical (clauses.map (·.id)))
    (plain : ∀ c ∈ clauses, c.extra = []) :
    Conversion.Succeed ({ clauses } : ConditionConfig).conversions ↔
      clauses.tail.length < Decimal.leastLong := by
  have given : clauses ≠ [] := List.map_eq_nil_iff.not.1 handles.ne_nil
  rw [succeed_conversions_iff rfl plain given, and_iff_right_iff_imp]
  intro few c mem
  have there : c.id ∈ clauses.map (·.id) := List.mem_map_of_mem (List.mem_of_mem_tail mem)
  rw [handles.trim there]
  refine handles.short ?_ there
  rw [List.length_map]
  have few : clauses.length - 1 < Decimal.leastLong := by rwa [List.length_tail] at few
  omega

/-- What was legible is legible again, as it was read. -/
theorem legible_canonical {d : Document} (h : Condition.Legible d) :
    Conversion.Succeed ({ clauses := Condition.canonical d } : ConditionConfig).conversions := by
  refine (legible_of_canonical (Condition.canonical_canonical d) fun c mem => ?_).2 ?_
  · exact (Condition.plain_of_mem_canonical mem).1
  · have few := (Condition.legible_iff.1 h).2.2
    rwa [List.length_tail, ← Condition.length_canonical, ← List.length_tail] at few

/-- The canonical clauses of settings, once what is in them is converted. -/
def normalize (c : ConditionConfig) : Except Overlong (List Clause) :=
  Condition.normalize (.object (c.row Key.written .kept))

theorem normalize_eq_ok_iff {c : ConditionConfig} {cs : List Clause} :
    c.normalize = .ok cs ↔ Conversion.Succeed c.conversions ∧ c.canonical = cs :=
  Condition.normalize_eq_ok_iff

/-- Settings whose second clause asks for a handle that cannot be read. -/
def overlong : ConditionConfig := { clauses := [{}, { id := Handle.overlong }] }

/-- The handle is what they cannot be read for. -/
theorem firstFailure?_overlong :
    Conversion.firstFailure? overlong.conversions = some (.read (Decimal.mostDigits + 1)) := by
  have plain : ∀ clause ∈ overlong.clauses, clause.extra = [] := by simp [overlong]
  have given : overlong.clauses ≠ [] := List.cons_ne_nil _ _
  have shown : Conversion.firstFailure?
      ((Condition.texts (.object (overlong.row Key.written .kept))).map .text) = none := by
    rw [Conversion.firstFailure?_eq_none_iff, Conversion.succeed_map]
    intro t mem
    exact Conversion.failure?_text_eq_none.2 (hasLong_of_mem_texts rfl plain given t mem)
  have asked : (Condition.readClauses (.object (overlong.row Key.written .kept))).tail.map (·.id)
      = [Handle.overlong] := by
    rw [List.map_tail, map_id_readClauses rfl plain given]
    simp [overlong, Handle.trim_overlong]
  have handles : (Condition.readClauses (.object (overlong.row Key.written .kept))).tail.map
      (fun clause => Conversion.handle clause.id) = [.handle Handle.overlong] := by
    have map := congrArg (List.map Conversion.handle) asked
    rwa [List.map_map] at map
  rw [conversions, Condition.conversions, handles, Conversion.firstFailure?, List.append_assoc,
    List.findSome?_append, ← Conversion.firstFailure?, shown]
  simp [Handle.failure?_overlong]

theorem not_succeed_overlong : ¬ Conversion.Succeed overlong.conversions := by
  rw [← Conversion.firstFailure?_eq_none_iff, firstFailure?_overlong]
  simp

/-- What asks for the handle is not read at all. -/
theorem normalize_overlong : overlong.normalize = .error (.read (Decimal.mostDigits + 1)) := by
  rw [normalize, Condition.normalize, Conversion.after, ← conversions, firstFailure?_overlong]

end ConditionConfig

end Journey
