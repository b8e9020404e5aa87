import Journey.Proofs.Condition.Handles
import Mathlib.Tactic.Simproc.ExistsAndEq

/-!
# Journey.Proofs.Condition.Reading -- clauses that are read as they were written

The settings of a condition are written out and read again before they are used.  A member that no
declared field has taken is written after the declared ones and would take the place of one that has
its name; settings that were read from a document have no such members (`regular_of_decode`), so that
of them only canonical handles are asked for (`canonical_iff_of_decode`).  Then the clauses that are read
are those that were written (`readClauses_row`), and canonical handles are read as they are
(`Canonical.map_id_canonical`).  What a block accepts as a handle is then seen on its settings
(`Canonical.offers_iff`).
-/

namespace Journey

set_option autoImplicit false

open Journey.Text (trim lower)

/-! ## Members in rows -/

namespace Fields

theorem get?_overlay_of_absent {row patch : Fields} {key : String} (absent : get? patch key = none) :
    get? (overlay row patch) key = get? row key := by
  induction patch generalizing row with
  | nil => rfl
  | cons m patch ih =>
    obtain ⟨k, v⟩ := m
    rw [get?_cons] at absent
    split at absent
    · cases absent
    · next other =>
      show get? (overlay (set row k v) patch) key = _
      rw [ih absent, get?_set, if_neg other]

/-- Members that a declared field has taken are not among the others. -/
theorem get?_unclaimed {keys : List Key} {key : Key} (declared : key ∈ keys) (row : Fields) :
    get? (Key.unclaimed keys row) key.written = none := by
  rw [get?, List.lookup_eq_none_iff]
  intro m mem
  obtain ⟨memRow, free⟩ := List.mem_filter.1 mem
  simp only [Bool.not_eq_true', List.contains_eq_mem, decide_eq_false_iff_not,
    List.mem_filterMap, not_exists, not_and] at free
  have there : (get? row m.1).isSome = true := by
    rw [Option.isSome_iff_ne_none, get?, ne_eq, List.lookup_eq_none_iff]
    intro missing
    simpa using missing m memRow
  obtain ⟨d, found⟩ := Option.isSome_iff_exists.1 there
  rw [bne_iff_ne]
  intro same
  refine free key declared ?_
  rw [← same] at found
  rw [Key.find?_written found, same]
  rfl

end Fields

/-- No foreign member stands in the place of the identifier. -/
def Clause.Regular (c : Clause) : Prop := Fields.get? c.extra Clause.idKey.written = none

/-- No foreign member stands in the place of the clauses, nor of an identifier of one. -/
structure ConditionConfig.Regular (c : ConditionConfig) : Prop where
  clauses : Fields.get? c.extra ConditionConfig.clausesKey.written = none
  ids : ∀ clause ∈ c.clauses, clause.Regular

/-! ## What was checked -/

/-- A field of one word is found under this word. -/
theorem Key.find?_word (name : String) (row : Fields) :
    (word name).find? row = (Fields.get? row name).map fun d => (name, d) := by
  simp only [find?, word]
  cases Fields.get? row name <;> rfl

namespace Checked

variable {α : Type} {check : Document → Checked α} {a : α} {as : List α} {d : Document}

/-- A field of one word was left out or is read from the member of this name. -/
theorem of_word {row : Fields} {name : String} {default : α}
    (h : field row (.word name) check default = .valid a) :
    a = default ∨ check (Fields.getD row name) = .valid a := by
  rw [field, Key.find?_word] at h
  rw [Fields.getD]
  cases found : Fields.get? row name with
  | none =>
    rw [found] at h
    cases h
    exact .inl rfl
  | some d =>
    rw [found] at h
    exact .inr (under_eq_valid_iff.1 h)

theorem of_items {β : Type} {check : β → Checked α} {start : Nat} {bs : List β}
    (h : items check start bs = .valid as) : ∀ a ∈ as, ∃ b ∈ bs, check b = .valid a := by
  induction bs generalizing start as with
  | nil =>
    cases h
    simp
  | cons b bs ih =>
    obtain ⟨f, rest, head, later, rfl⟩ := seq_eq_valid_iff.1 h
    obtain ⟨a, checked, rfl⟩ := map_eq_valid_iff.1 head
    refine List.forall_mem_cons.2 ⟨⟨b, List.mem_cons_self, under_eq_valid_iff.1 checked⟩, fun a mem => ?_⟩
    obtain ⟨b, memB, checked⟩ := ih later a mem
    exact ⟨b, List.mem_cons_of_mem _ memB, checked⟩

/-- The values of a checked list are those of its items. -/
theorem of_list (h : list check d = .valid as) : ∀ a ∈ as, ∃ item ∈ d.items, check item = .valid a := by
  cases d with
  | list items => exact of_items h
  | _ => cases h

theorem of_object {check : Fields → Checked α} (h : object check d = .valid a) :
    check d.fields = .valid a := by
  cases d with
  | object row => exact h
  | _ => cases h

end Checked

/-- A clause is read from a row field by field. -/
theorem Clause.decode_eq_valid_iff {row : Fields} {c : Clause} :
    decode row = .valid c ↔
      Checked.field row idKey .text "if" = .valid c.id
        ∧ Checked.field row ruleKey (.choice Rule.named?) .emailOpened = .valid c.rule
        ∧ Checked.field row propertyKeyKey .text "" = .valid c.propertyKey
        ∧ Checked.field row comparatorKey (.choice Comparator.named?) .present = .valid c.comparator
        ∧ Checked.field row valueKey .text "" = .valid c.value
        ∧ c.extra = Key.unclaimed keys row := by
  rw [eq_comm (a := c.extra)]
  cases c
  simp [decode, Functor.map, Seq.seq, Checked.seq_eq_valid_iff, Checked.map_eq_valid_iff, and_assoc]

theorem Clause.extra_of_decode {row : Fields} {c : Clause} (h : Clause.decode row = .valid c) :
    c.extra = Key.unclaimed keys row :=
  (decode_eq_valid_iff.1 h).2.2.2.2.2

theorem Clause.regular_of_decode {row : Fields} {c : Clause} (h : Clause.decode row = .valid c) :
    c.Regular := by
  rw [Regular, extra_of_decode h]
  exact Fields.get?_unclaimed (by simp [keys]) row

namespace Condition

theorem named?_rule_name (r : Rule) : Rule.named? (lower (trim r.name)) = some r := by
  cases r <;> decide +kernel

theorem named?_comparator_name (c : Comparator) :
    Comparator.named? (lower (trim c.name)) = some c := by
  cases c <;> decide +kernel

/-- A clause without foreign members is read as it was written, but for blanks around its names. -/
theorem readClause_row {c : Clause} (plain : c.extra = []) :
    readClause (.object (c.row Key.written))
      = { c with id := trim c.id, propertyKey := trim c.propertyKey } := by
  obtain ⟨id, rule, propertyKey, comparator, value, extra⟩ := c
  obtain rfl : extra = [] := plain
  simp [readClause, firstGiven, Clause.row, Fields.overlay, Fields.getD, Fields.get?_cons, Key.word,
    Clause.idKey, Clause.ruleKey, Clause.propertyKeyKey, Clause.comparatorKey, Clause.valueKey,
    named?_rule_name, named?_comparator_name, Document.isNull]

theorem id_readClause_row {c : Clause} (regular : c.Regular) :
    (readClause (.object (c.row Key.written))).id = trim c.id := by
  have found : Fields.get? (c.row Key.written) Clause.idKey.written = some (.text c.id) := by
    rw [Clause.row, Fields.get?_overlay_of_absent regular, Fields.get?_cons, if_pos rfl]
  change Fields.get? (c.row Key.written) "id" = _ at found
  simp [readClause, Fields.getD, found]

/-- The list of settings is found where they are written. -/
theorem getD_clauses_row {c : ConditionConfig}
    (regular : Fields.get? c.extra ConditionConfig.clausesKey.written = none) :
    Fields.getD (c.row Key.written .kept) "clauses"
      = .list (c.clauses.map fun clause => .object (clause.row Key.written)) := by
  have found : Fields.get? (c.row Key.written .kept) ConditionConfig.clausesKey.written
      = some (.list (c.clauses.map fun clause => .object (clause.row Key.written))) := by
    rw [ConditionConfig.row, Fields.get?_overlay_of_absent regular, Fields.get?_cons, if_pos rfl]
    rfl
  change Fields.get? (c.row Key.written .kept) "clauses" = _ at found
  rw [Fields.getD, found, Option.getD_some]

/-- The clauses of settings are those that are written in their list. -/
theorem readClauses_row {c : ConditionConfig}
    (regular : Fields.get? c.extra ConditionConfig.clausesKey.written = none)
    (given : c.clauses ≠ []) :
    readClauses (.object (c.row Key.written .kept))
      = c.clauses.map fun clause => readClause (.object (clause.row Key.written)) := by
  cases clauses : c.clauses with
  | nil => exact absurd clauses given
  | cons d ds => simp [readClauses, getD_clauses_row regular, clauses, Function.comp_def]

theorem map_extra_grantHandles (total : Nat) (used : List String) (cs : List Clause) :
    (grantHandles total used cs).map (·.extra) = cs.map (·.extra) := by
  induction cs generalizing used with
  | nil => rfl
  | cons c cs ih =>
    rw [grantHandles, List.map_cons, List.map_cons, ih]

/-- What is read as a clause has no foreign members. -/
theorem map_extra_canonical (d : Document) :
    (canonical d).map (·.extra) = List.replicate (canonical d).length [] := by
  have read : (readClauses d).map (·.extra) = List.replicate (readClauses d).length [] := by
    unfold readClauses
    split
    · rfl
    · rw [List.eq_replicate_iff]
      simp [readClause]
  rw [length_canonical, ← read, canonical]
  cases readClauses d with
  | nil => rfl
  | cons c cs => rw [withHandles, List.map_cons, List.map_cons, map_extra_grantHandles]

end Condition

namespace ConditionConfig

/-- Settings with canonical handles, in whose place no foreign member stands. -/
structure Canonical (c : ConditionConfig) : Prop where
  regular : c.Regular
  handles : Handle.Canonical (c.clauses.map (·.id))

/-- Canonical settings are read with the handles they have. -/
theorem Canonical.map_id_canonical {c : ConditionConfig} (h : c.Canonical) :
    c.canonical.map (·.id) = c.clauses.map (·.id) := by
  have nonempty : c.clauses ≠ [] := List.map_eq_nil_iff.not.1 h.handles.ne_nil
  have ids : (Condition.readClauses (.object (c.row Key.written .kept))).map (·.id)
      = c.clauses.map (·.id) := by
    rw [Condition.readClauses_row h.regular.clauses nonempty, List.map_map]
    refine List.map_congr_left fun clause mem => ?_
    show (Condition.readClause (.object (clause.row Key.written))).id = clause.id
    rw [Condition.id_readClause_row (h.regular.ids clause mem)]
    exact h.handles.trim (List.mem_map_of_mem mem)
  rw [ConditionConfig.canonical, Condition.canonical, Condition.map_id_withHandles (ids ▸ h.handles),
    ids]

/-- Clauses with canonical handles are read as they were written, where they have no foreign members and
no blanks around their keys. -/
theorem canonical_eq_self {clauses : List Clause} (handles : Handle.Canonical (clauses.map (·.id)))
    (plain : ∀ c ∈ clauses, c.extra = [] ∧ trim c.propertyKey = c.propertyKey) :
    ({ clauses } : ConditionConfig).canonical = clauses := by
  have nonempty : clauses ≠ [] := List.map_eq_nil_iff.not.1 handles.ne_nil
  have read : clauses.map (fun c => Condition.readClause (.object (c.row Key.written))) = clauses := by
    refine (List.map_congr_left fun c mem => ?_).trans (List.map_id _)
    obtain ⟨bare, trimmed⟩ := plain c mem
    rw [Condition.readClause_row bare, handles.trim (List.mem_map_of_mem mem), trimmed]
    rfl
  rw [canonical, Condition.canonical, Condition.readClauses_row rfl nonempty, read,
    Condition.withHandles_eq_self handles]

theorem Canonical.offers_iff {c : ConditionConfig} (h : c.Canonical) {door : String} :
    Condition.accepts c.canonical door = true
      ↔ door ∈ c.clauses.map (·.id) ∨ door = Handle.elseBranch := by
  rw [Condition.accepts_iff, h.map_id_canonical]

/-- The clauses that any stored value stands for make canonical settings. -/
theorem canonical_of_document (d : Document) : Canonical { clauses := Condition.canonical d } where
  regular := by
    refine ⟨rfl, fun clause mem => ?_⟩
    have plain := List.mem_map_of_mem (f := Clause.extra) mem
    rw [Condition.map_extra_canonical] at plain
    rw [Clause.Regular, List.eq_of_mem_replicate plain]
    rfl
  handles := Condition.canonical_canonical d

theorem decode_eq_valid_iff {row : Fields} {c : ConditionConfig} :
    decode row = .valid c ↔
      Checked.field row clausesKey (.list (.object Clause.decode)) [{}] = .valid c.clauses
        ∧ c.extra = Key.unclaimed keys row := by
  rw [eq_comm (a := c.extra)]
  cases c
  simp [decode, Functor.map, Seq.seq, Checked.seq_eq_valid_iff, Checked.map_eq_valid_iff]

/-- What a document says is regular, whatever foreign members it has. -/
theorem regular_of_decode {row : Fields} {c : ConditionConfig} (h : decode row = .valid c) :
    c.Regular := by
  obtain ⟨checked, extra⟩ := decode_eq_valid_iff.1 h
  constructor
  · rw [extra]
    exact Fields.get?_unclaimed (by simp [keys]) row
  · intro clause mem
    rcases Checked.of_word checked with default | decoded
    · rw [default, List.mem_singleton] at mem
      rw [mem]
      rfl
    · obtain ⟨item, -, decoded⟩ := Checked.of_list decoded clause mem
      exact Clause.regular_of_decode (Checked.of_object decoded)

/-- Of settings that were read only the handles are asked for. -/
theorem canonical_iff_of_decode {row : Fields} {c : ConditionConfig} (h : decode row = .valid c) :
    c.Canonical ↔ Handle.Canonical (c.clauses.map (·.id)) :=
  ⟨fun canonical => canonical.handles, fun handles => ⟨regular_of_decode h, handles⟩⟩

end ConditionConfig

end Journey
