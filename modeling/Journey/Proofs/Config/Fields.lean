import Journey.Config.Stored
import Mathlib.Tactic.Simproc.ExistsAndEq

/-!
# Journey.Proofs.Config.Fields -- the fields of settings, one after the other

Every kind of settings is checked in the same way: each declared field is read from its member, or has its
default if there is none, and the members that no field takes are kept.  The fields of a kind are listed here
with their checks and with what settings hold in them (`Config.fields`), so that what is true of each field is
said once and not for each kind.  No two fields of a kind share a spelling (`Key.Separate`).

Main statement: settings are read from a row exactly if each of their fields is, and their other members are
those that are left over (`Config.decode_eq_valid_iff`).
-/

namespace Journey

set_option autoImplicit false

/-! ## Spellings -/

namespace Key

/-- One of the two spellings of a field. -/
def Spells (key : Key) (s : String) : Prop := s = key.written ∨ s = key.other

instance (key : Key) (s : String) : Decidable (key.Spells s) := inferInstanceAs (Decidable (_ ∨ _))

/-- No field is listed twice, and no two share a spelling. -/
structure Separate (keys : List Key) : Prop where
  nodup : keys.Nodup
  eq_of_spells : ∀ k ∈ keys, ∀ l ∈ keys, k.Spells l.written ∨ k.Spells l.other → k = l

instance (keys : List Key) : Decidable (Separate keys) :=
  decidable_of_iff
    (keys.Nodup ∧ ∀ k ∈ keys, ∀ l ∈ keys, k.Spells l.written ∨ k.Spells l.other → k = l)
    ⟨fun both => ⟨both.1, both.2⟩, fun separate => ⟨separate.nodup, separate.eq_of_spells⟩⟩

variable {keys : List Key} {key l : Key} {s : String}

theorem Separate.eq (h : Separate keys) (memK : key ∈ keys) (memL : l ∈ keys) (spellsK : key.Spells s)
    (spellsL : l.Spells s) : key = l := by
  refine h.eq_of_spells key memK l memL ?_
  rcases spellsL with rfl | rfl
  · exact .inl spellsK
  · exact .inr spellsK

theorem mem_spellings_iff : s ∈ spellings keys ↔ ∃ k ∈ keys, k.Spells s := by
  simp [spellings, Spells]

end Key

/-! ## Checks that are passed -/

namespace Checked

variable {α β : Type} {x : Checked α}

/-- The check accepts a value. -/
def IsValid (x : Checked α) : Prop := ∃ a, x = .valid a

@[simp] theorem isValid_valid (a : α) : (valid a).IsValid := ⟨a, rfl⟩

@[simp] theorem isValid_map_iff (f : α → β) (x : Checked α) : (f <$> x).IsValid ↔ x.IsValid := by
  constructor
  · rintro ⟨_, passed⟩
    obtain ⟨a, first, -⟩ := map_eq_valid_iff.1 passed
    exact ⟨a, first⟩
  · rintro ⟨a, rfl⟩
    exact ⟨f a, rfl⟩

@[simp] theorem isValid_seq_iff (f : Checked (α → β)) (x : Checked α) :
    (f <*> x).IsValid ↔ f.IsValid ∧ x.IsValid := by
  constructor
  · rintro ⟨_, passed⟩
    obtain ⟨g, a, first, second, -⟩ := seq_eq_valid_iff.1 passed
    exact ⟨⟨g, first⟩, a, second⟩
  · rintro ⟨⟨g, rfl⟩, a, rfl⟩
    exact ⟨g a, rfl⟩

end Checked

/-! ## Fields -/

namespace Config

/-- A declared field: how it is read, and what settings hold in it. -/
structure Field where
  key : Key
  {Value : Type}
  check : Document → Checked Value
  default : Value
  held : Config → Option Value

open TriggerConfig EmailConfig WaitConfig ConditionConfig SplitConfig WebhookConfig ExitConfig in
/-- The declared fields of a kind in their order. -/
def fields : NodeKind → List Field
  | .trigger =>
      [⟨triggerTypeKey, .choice TriggerType.named?, .listJoined,
        fun | .trigger c => some c.triggerType | _ => none⟩,
       ⟨listIdKey, .orNull .text, none, fun | .trigger c => some c.listId | _ => none⟩,
       ⟨eventNameKey, .orNull .text, none, fun | .trigger c => some c.eventName | _ => none⟩]
  | .sendEmail =>
      [⟨subjectKey, .text, "", fun | .sendEmail c => some c.subject | _ => none⟩,
       ⟨bodyKey, .text, "", fun | .sendEmail c => some c.body | _ => none⟩,
       ⟨senderConfigIdKey, .orNull .text, none, fun | .sendEmail c => some c.senderConfigId | _ => none⟩,
       ⟨templateIdKey, .orNull .text, none, fun | .sendEmail c => some c.templateId | _ => none⟩,
       ⟨personalizationTokensKey, .list .text, [],
        fun | .sendEmail c => some c.personalizationTokens | _ => none⟩,
       ⟨threadWithPreviousKey, .flag, true, fun | .sendEmail c => some c.threadWithPrevious | _ => none⟩]
  | .wait =>
      [⟨durationKey, WaitConfig.stated, none, fun | .wait c => some c.duration | _ => none⟩,
       ⟨unitKey, .choice WaitUnit.named?, .days, fun | .wait c => some c.unit | _ => none⟩,
       ⟨timeWindowStartKey, .orNull .text, none, fun | .wait c => some c.timeWindowStart | _ => none⟩,
       ⟨timeWindowEndKey, .orNull .text, none, fun | .wait c => some c.timeWindowEnd | _ => none⟩,
       ⟨randomizedKey, .flag, false, fun | .wait c => some c.randomized | _ => none⟩,
       ⟨randomMaxMinutesKey, .orNull .whole, none, fun | .wait c => some c.randomMaxMinutes | _ => none⟩]
  | .condition =>
      [⟨clausesKey, .list (.object Clause.decode), [{}],
        fun | .condition c => some c.clauses | _ => none⟩]
  | .split =>
      [⟨percentageAKey, .real, 50.0, fun | .split c => some c.percentageA | _ => none⟩,
       ⟨percentageBKey, .real, 50.0, fun | .split c => some c.percentageB | _ => none⟩]
  | .webhook =>
      [⟨urlKey, .text, "", fun | .webhook c => some c.url | _ => none⟩,
       ⟨methodKey, .choice CallMethod.named?, .post, fun | .webhook c => some c.method | _ => none⟩,
       ⟨payloadTemplateKey, .orNull .text, none,
        fun | .webhook c => some c.payloadTemplate | _ => none⟩]
  | .exit =>
      [⟨reasonKey, .choice ExitReason.named?, .completed, fun | .exit c => some c.reason | _ => none⟩]

/-- The members that are not declared. -/
def extra : Config → Fields
  | .trigger c => c.extra
  | .sendEmail c => c.extra
  | .wait c => c.extra
  | .condition c => c.extra
  | .split c => c.extra
  | .webhook c => c.extra
  | .exit c => c.extra

variable {kind : NodeKind} {row : Fields} {c : Config} {f : Field}

theorem map_key_fields (kind : NodeKind) : (fields kind).map (·.key) = keys kind := by cases kind <;> rfl

theorem separate_keys (kind : NodeKind) : Key.Separate (keys kind) := by cases kind <;> decide

theorem Field.key_mem_keys (mem : f ∈ fields kind) : f.key ∈ keys kind :=
  map_key_fields kind ▸ List.mem_map_of_mem mem

/-- The settings hold in the field what is read for it. -/
def Field.Read (f : Field) (row : Fields) (c : Config) : Prop :=
  ∃ a, Checked.field row f.key f.check f.default = .valid a ∧ f.held c = some a

/-- The check of settings is passed if those of all fields are. -/
theorem isValid_decode_iff : (decode kind row).IsValid ↔
    ∀ f ∈ fields kind, (Checked.field row f.key f.check f.default).IsValid := by
  cases kind <;>
    simp [decode, fields, TriggerConfig.decode, EmailConfig.decode, WaitConfig.decode, ConditionConfig.decode,
      SplitConfig.decode, WebhookConfig.decode, ExitConfig.decode, and_assoc]

/-- Every field of empty settings is at its default. -/
theorem held_empty (kind : NodeKind) : ∀ f ∈ fields kind, f.held (empty kind) = some f.default := by
  cases kind <;> simp [fields, empty]

/-- Settings are read from a row field by field. -/
theorem decode_eq_valid_iff : decode kind row = .valid c ↔
    c.kind = kind ∧ (∀ f ∈ fields kind, f.Read row c) ∧ c.extra = Key.unclaimed (keys kind) row := by
  rw [eq_comm (a := c.extra)]
  by_cases same : c.kind = kind
  · subst same
    -- a check of several fields is passed if that of the last one is, and that of those before it
    cases c <;> rename_i c <;> cases c <;>
      simp [decode, TriggerConfig.decode, EmailConfig.decode, WaitConfig.decode, ConditionConfig.decode,
        SplitConfig.decode, WebhookConfig.decode, ExitConfig.decode, Functor.map, Seq.seq,
        Checked.seq_eq_valid_iff, Checked.map_eq_valid_iff, Config.kind, fields, Field.Read, extra, keys,
        and_assoc, -Bool.exists_bool]
  · exact ⟨fun h => absurd (kind_of_decode h) same, fun h => absurd h.1 same⟩

theorem extra_of_decode (h : decode kind row = .valid c) : c.extra = Key.unclaimed (keys kind) row :=
  (decode_eq_valid_iff.1 h).2.2

end Config

end Journey
