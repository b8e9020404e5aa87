import Journey.Node.Catalogue
import Journey.Config.Salvaged
import Journey.Proofs.Config.Fields
import Journey.Proofs.Document.Rows
import Journey.Proofs.Text.Trimmed

/-!
# Journey.Proofs.Config.Reloaded -- settings that are written and read again

Settings are stored without the fields that hold nothing, and read with a reader that takes whatever it
is given.  Where no foreign member is spelled like a field, what is read are the settings that were
written (`salvage_document`): the length of a pause that was left open is stated, foreign members that
hold nothing are gone, and the clauses of a condition are those it had in canonical form
(`Config.reloaded`).  None of this is seen in what is written next (`document_reloaded`).

Settings that were read are of this kind, provided that no member held nothing (`apart_salvage`): a field
under its written spelling that holds nothing hides a member under the other spelling only until it is
left out.
-/

namespace Journey

set_option autoImplicit false

open Journey.Text (trim)

namespace Document

@[simp] theorem isNull_text (s : String) : (text s).isNull = false := rfl

@[simp] theorem isNull_bool (b : Bool) : (bool b).isNull = false := rfl

@[simp] theorem isNull_float (x : Float) : (float x).isNull = false := rfl

@[simp] theorem isNull_list (ds : List Document) : (list ds).isNull = false := rfl

@[simp] theorem isNull_ofText?_iff {t : Option String} : (ofText? t).isNull = true ↔ t = none := by
  cases t <;> simp [ofText?, isNull]

@[simp] theorem isNull_ofInt?_iff {n : Option Int} : (ofInt? n).isNull = true ↔ n = none := by
  cases n <;> simp [ofInt?, isNull]

end Document

/-! ## Fields -/

namespace Key

variable {key : Key} {row : Fields}

theorem find?_eq_none_iff :
    key.find? row = none ↔ Fields.get? row key.written = none ∧ Fields.get? row key.other = none := by
  unfold find?
  cases Fields.get? row key.written <;> simp

theorem mem_of_find? {m : String × Document} (h : key.find? row = some m) : m ∈ row := by
  unfold find? at h
  split at h
  · next found =>
    cases h
    exact Fields.mem_of_get? found
  · obtain ⟨d, found, rfl⟩ := Option.map_eq_some_iff.1 h
    exact Fields.mem_of_get? found

end Key

namespace Checked

variable {α : Type} {check : Document → Checked α} {default a : α} {row others : Fields} {key : Key}
  {d : Document} {ds : List (Key × Document)}

/-- A value is read from what is written for it; nothing is written for the default only. -/
def Reads (check : Document → Checked α) (default : α) (d : Document) (a : α) : Prop :=
  if d.isNull then default = a else check d = .valid a

theorem reads_text (s : String) {default : String} : Reads text default (.text s) s := rfl

theorem reads_flag (b : Bool) {default : Bool} : Reads flag default (.bool b) b := rfl

theorem reads_real (x : Float) {default : Float} : Reads real default (.float x) x := rfl

theorem reads_text? (t : Option String) : Reads (orNull text) none (.ofText? t) t := by
  cases t <;> rfl

theorem reads_int? (n : Option Int) : Reads (orNull whole) none (.ofInt? n) n := by
  cases n <;> rfl

theorem reads_choice {named? : String → Option α} {name : String} (named : named? name = some a) :
    Reads (choice named?) default (.text name) a := by
  show ofOption (named? name) = .valid a
  rw [named]
  rfl

theorem items_map {write : α → Document} (read : α → α) {as : List α} (start : Nat)
    (each : ∀ a ∈ as, check (write a) = .valid (read a)) :
    items check start (as.map write) = .valid (as.map read) := by
  induction as generalizing start with
  | nil => rfl
  | cons a as ih =>
    obtain ⟨first, rest⟩ := List.forall_mem_cons.1 each
    rw [List.map_cons, items, first, ih (start + 1) rest]
    rfl

theorem reads_list {write : α → Document} (read : α → α) {as default : List α}
    (each : ∀ a ∈ as, check (write a) = .valid (read a)) :
    Reads (list check) default (.list (as.map write)) (as.map read) :=
  items_map read 0 each

theorem reads_texts (ss : List String) : Reads (list text) [] (.list (ss.map .text)) ss := by
  have each : ∀ s ∈ ss, text (.text s) = .valid (id s) := fun s _ => text_text s
  simpa using reads_list id each

/-- Where the members are apart, a field is read as it was written. -/
theorem field_of_apart (h : Fields.Apart ds others) (mem : (key, d) ∈ ds)
    (reads : Reads check default d a) :
    field (Nulls.dropped.members (Fields.overlay (Fields.declared ds) others)) key check default
      = .valid a := by
  have found := h.find? mem
  unfold Reads at reads
  split at reads
  · next null =>
    rw [if_pos null] at found
    rw [field_of_absent found, reads]
  · next held =>
    rw [if_neg held] at found
    rw [field_of_found found, reads]
    rfl

/-- Where every member holds something, a field is open only if it has no member. -/
theorem find?_of_open (solid : row.Solid) (h : field row key (orNull check) none = .valid none) :
    key.find? row = none := by
  unfold field at h
  cases found : key.find? row with
  | none => rfl
  | some m =>
    obtain ⟨spelling, d⟩ := m
    rw [found] at h
    have held : d.isNull = false := solid _ (Key.mem_of_find? found)
    have checked := under_eq_valid_iff.1 h
    cases d with
    | null => cases held
    | _ =>
      obtain ⟨_, _, impossible⟩ := map_eq_valid_iff.1 checked
      cases impossible

theorem absent_of_field {a : Option α} (solid : row.Solid)
    (h : field row key (orNull check) none = .valid a) (unset : a = none) :
    Fields.get? row key.other = none :=
  (Key.find?_eq_none_iff.1 (find?_of_open solid (unset ▸ h))).2

end Checked

/-- What no field takes is apart from the fields if those that hold nothing have no member. -/
theorem Fields.apart_unclaimed {ds : List (Key × Document)} {row : Fields}
    (proper : Key.Proper (ds.map (·.1)))
    (unshadowed : ∀ m ∈ ds, m.2.isNull = true → Fields.get? row m.1.other = none) :
    Fields.Apart ds (Key.unclaimed (ds.map (·.1)) row) where
  proper := proper
  written m mem := Fields.get?_unclaimed (List.mem_map_of_mem mem) row
  other m mem null := by
    have absent := Fields.get?_eq_none_iff.1 (unshadowed m mem null)
    exact Fields.get?_eq_none_iff.2 fun there =>
      absent (List.map_subset _ List.filter_sublist.subset there)

/-! ## Clauses -/

namespace Condition

theorem readClause_congr {row other : Fields} (same : Fields.getD row = Fields.getD other) :
    readClause (.object row) = readClause (.object other) := by
  have given : firstGiven row = firstGiven other := by
    funext keys
    rw [firstGiven, firstGiven, same]
  simp only [readClause, Document.fields_object, same, given]
  congr

/-- Leaving out what holds nothing is not seen in a clause. -/
theorem getD_members_row (c : Clause) :
    Fields.getD (Nulls.dropped.members (c.row Key.written)) = Fields.getD (c.row Key.written) := by
  refine funext fun k => Fields.getD_members ?_ k
  refine Fields.nodup_keys_overlay ?_ _
  show (Clause.keys.map (·.written)).Nodup
  decide

/-- A clause that was read has no blanks around the key of its property. -/
theorem trim_propertyKey_canonical {d : Document} {c : Clause} (mem : c ∈ canonical d) :
    trim c.propertyKey = c.propertyKey := by
  have granted (total : Nat) (used : List String) (cs : List Clause) :
      (grantHandles total used cs).map (·.propertyKey) = cs.map (·.propertyKey) := by
    induction cs generalizing used with
    | nil => rfl
    | cons c cs ih =>
      rw [grantHandles, List.map_cons, List.map_cons, ih]
  have kept : (canonical d).map (·.propertyKey) = (readClauses d).map (·.propertyKey) := by
    rw [canonical]
    cases readClauses d with
    | nil => rfl
    | cons c cs => rw [withHandles, List.map_cons, List.map_cons, granted]
  have listed := List.mem_map_of_mem (f := Clause.propertyKey) mem
  rw [kept] at listed
  obtain ⟨c', mem', same⟩ := List.mem_map.1 listed
  have read : ∃ e, c'.propertyKey = (readClause e).propertyKey := by
    unfold readClauses at mem'
    split at mem'
    · rw [List.mem_singleton] at mem'
      have flat := congrArg Clause.propertyKey mem'
      exact ⟨.object d.fields, flat⟩
    · next first rest _ =>
      rw [← List.map_cons (f := readClause)] at mem'
      obtain ⟨e, -, rfl⟩ := List.mem_map.1 mem'
      exact ⟨e, rfl⟩
  obtain ⟨e, read⟩ := read
  rw [← same, read]
  exact Text.trimmed_trim _

/-- A read clause has no foreign members and no blanks around its key. -/
theorem plain_of_mem_canonical {d : Document} {c : Clause} (mem : c ∈ canonical d) :
    c.extra = [] ∧ trim c.propertyKey = c.propertyKey := by
  have plain := List.mem_map_of_mem (f := Clause.extra) mem
  rw [map_extra_canonical] at plain
  exact ⟨List.eq_of_mem_replicate plain, trim_propertyKey_canonical mem⟩

end Condition

namespace ConditionConfig

/-- Canonical clauses that were read are read as they are. -/
theorem canonical_canonical (d : Document) :
    ({ clauses := Condition.canonical d } : ConditionConfig).canonical = Condition.canonical d :=
  canonical_eq_self (Condition.canonical_canonical d) fun _ mem => Condition.plain_of_mem_canonical mem

section Members

variable {c : ConditionConfig}

theorem getD_members_row (c : ConditionConfig) :
    Fields.getD (Nulls.dropped.members (c.row Key.written .dropped))
      = Fields.getD (c.row Key.written .dropped) := by
  refine funext (Fields.getD_members ?_)
  refine Fields.nodup_keys_overlay ?_ c.extra
  exact List.nodup_singleton clausesKey.written

/-- Without clauses, what is written differs only in what holds nothing. -/
theorem getD_members_of_nil (void : c.clauses = []) :
    Fields.getD (Nulls.dropped.members (c.row Key.written .dropped))
      = Fields.getD (c.row Key.written .kept) := by
  rw [getD_members_row, row, row, void]
  rfl

theorem getD_clauses_members (regular : Fields.get? c.extra clausesKey.written = none) :
    Fields.getD (Nulls.dropped.members (c.row Key.written .dropped)) "clauses"
      = .list (c.clauses.map fun clause => Nulls.dropped.object (clause.row Key.written)) := by
  have found : Fields.get? (c.row Key.written .dropped) clausesKey.written
      = some (.list (c.clauses.map fun clause => Nulls.dropped.object (clause.row Key.written))) := by
    rw [row, Fields.get?_overlay_of_absent regular, Fields.get?_cons, if_pos rfl]
  change Fields.get? (c.row Key.written .dropped) "clauses" = _ at found
  rw [getD_members_row, Fields.getD, found, Option.getD_some]

/-- Leaving out what holds nothing is not seen in the clauses. -/
theorem readClauses_members (regular : Fields.get? c.extra clausesKey.written = none) :
    Condition.readClauses (.object (Nulls.dropped.members (c.row Key.written .dropped)))
      = Condition.readClauses (.object (c.row Key.written .kept)) := by
  by_cases void : c.clauses = []
  · have look := getD_members_of_nil void
    unfold Condition.readClauses Condition.readFlat
    rw [Document.fields_object, Document.fields_object, Condition.readClause_congr look, look]
  · rw [Condition.readClauses_row regular void, Condition.readClauses, Document.fields_object,
      getD_clauses_members regular]
    cases clauses : c.clauses with
    | nil => exact absurd clauses void
    | cons first rest =>
      show List.map Condition.readClause
        ((first :: rest).map fun clause => Nulls.dropped.object (clause.row Key.written)) = _
      rw [List.map_map]
      exact List.map_congr_left fun clause _ => Condition.readClause_congr (Condition.getD_members_row clause)

theorem canonical_members (regular : Fields.get? c.extra clausesKey.written = none) :
    Condition.canonical (.object (Nulls.dropped.members (c.row Key.written .dropped))) = c.canonical :=
  congrArg Condition.withHandles (readClauses_members regular)

end Members

end ConditionConfig

/-! ## Settings -/

namespace Config

/-- The members that are declared, as they are stored. -/
def stored : Config → Fields
  | .trigger c => c.row Key.written
  | .sendEmail c => c.row Key.written
  | .wait c => c.row Key.written
  | .condition c =>
      [(ConditionConfig.clausesKey.written,
        .list (c.clauses.map fun clause => Nulls.dropped.object (clause.row Key.written)))]
  | .split c => c.row Key.written
  | .webhook c => c.row Key.written
  | .exit c => c.row Key.written

/-- The declared fields with what is stored for them. -/
def members (c : Config) : List (Key × Document) := (keys c.kind).zip (c.stored.map (·.2))

/-- The settings that are read from what is stored. -/
def reloaded : Config → Config
  | .trigger c => .trigger { c with extra := Fields.kept c.extra }
  | .sendEmail c => .sendEmail { c with extra := Fields.kept c.extra }
  | .wait c => .wait { c with duration := some c.length, extra := Fields.kept c.extra }
  | .condition c => .condition { clauses := c.canonical }
  | .split c => .split { c with extra := Fields.kept c.extra }
  | .webhook c => .webhook { c with extra := Fields.kept c.extra }
  | .exit c => .exit { c with extra := Fields.kept c.extra }

/-- No foreign member is taken for a field when the settings are read again. -/
def Apart (c : Config) : Prop := Fields.Apart c.members c.extra

@[simp] theorem kind_reloaded (c : Config) : c.reloaded.kind = c.kind := by cases c <;> rfl

theorem document_eq (c : Config) : c.document .dropped
    = .object (Nulls.dropped.members (Fields.overlay (Fields.declared c.members) c.extra)) := by
  cases c <;> rfl

theorem map_fst_members (c : Config) : c.members.map (·.1) = keys c.kind := by cases c <;> rfl

theorem proper_keys (kind : NodeKind) : Key.Proper (keys kind) := by cases kind <;> decide

theorem reads_stated (x : Float) : Checked.Reads WaitConfig.stated none (.float x) (some x) := rfl

/-- Settings are read as they were stored. -/
theorem decode_stored {c : Config} (h : c.Apart) (other : c.kind ≠ .condition) :
    decode c.kind (Nulls.dropped.members (Fields.overlay (Fields.declared c.members) c.extra))
      = .valid c.reloaded := by
  have unclaimed := h.unclaimed
  rw [map_fst_members] at unclaimed
  generalize stored : Nulls.dropped.members (Fields.overlay (Fields.declared c.members) c.extra) = row
    at unclaimed ⊢
  have field {α : Type} {key : Key} {check : Document → Checked α} {default a : α} {d : Document}
      (position : Nat) (there : c.members[position]? = some (key, d))
      (reads : Checked.Reads check default d a) : Checked.field row key check default = .valid a :=
    stored ▸ Checked.field_of_apart h (List.mem_of_getElem? there) reads
  -- each field in its turn, and last what is left over
  cases c with
  | trigger c =>
    show Config.trigger <$> TriggerConfig.decode row = _
    rw [TriggerConfig.decode,
      field 0 rfl (Checked.reads_choice (TriggerType.named?_name c.triggerType)),
      field 1 rfl (Checked.reads_text? c.listId), field 2 rfl (Checked.reads_text? c.eventName)]
    exact congrArg (fun extra => Checked.valid (Config.trigger { c with extra })) unclaimed
  | sendEmail c =>
    show Config.sendEmail <$> EmailConfig.decode row = _
    rw [EmailConfig.decode, field 0 rfl (Checked.reads_text c.subject),
      field 1 rfl (Checked.reads_text c.body), field 2 rfl (Checked.reads_text? c.senderConfigId),
      field 3 rfl (Checked.reads_text? c.templateId),
      field 4 rfl (Checked.reads_texts c.personalizationTokens),
      field 5 rfl (Checked.reads_flag c.threadWithPrevious)]
    exact congrArg (fun extra => Checked.valid (Config.sendEmail { c with extra })) unclaimed
  | wait c =>
    show Config.wait <$> WaitConfig.decode row = _
    rw [WaitConfig.decode, field 0 rfl (reads_stated c.length),
      field 1 rfl (Checked.reads_choice (WaitUnit.named?_name c.unit)),
      field 2 rfl (Checked.reads_text? c.timeWindowStart),
      field 3 rfl (Checked.reads_text? c.timeWindowEnd), field 4 rfl (Checked.reads_flag c.randomized),
      field 5 rfl (Checked.reads_int? c.randomMaxMinutes)]
    exact congrArg
      (fun extra => Checked.valid (Config.wait { c with duration := some c.length, extra })) unclaimed
  | condition c => exact absurd rfl other
  | split c =>
    show Config.split <$> SplitConfig.decode row = _
    rw [SplitConfig.decode, field 0 rfl (Checked.reads_real c.percentageA),
      field 1 rfl (Checked.reads_real c.percentageB)]
    exact congrArg (fun extra => Checked.valid (Config.split { c with extra })) unclaimed
  | webhook c =>
    show Config.webhook <$> WebhookConfig.decode row = _
    rw [WebhookConfig.decode, field 0 rfl (Checked.reads_text c.url),
      field 1 rfl (Checked.reads_choice (CallMethod.named?_name c.method)),
      field 2 rfl (Checked.reads_text? c.payloadTemplate)]
    exact congrArg (fun extra => Checked.valid (Config.webhook { c with extra })) unclaimed
  | exit c =>
    show Config.exit <$> ExitConfig.decode row = _
    rw [ExitConfig.decode, field 0 rfl (Checked.reads_choice (ExitReason.named?_name c.reason))]
    exact congrArg (fun extra => Checked.valid (Config.exit { c with extra })) unclaimed

/-- Reading changes nothing that is written. -/
theorem document_reloaded {c : Config} (h : c.Apart) (other : c.kind ≠ .condition) :
    c.reloaded.document .dropped = c.document .dropped := by
  have same := congrArg Document.object h.members_kept
  rw [document_eq c, ← same]
  cases c with
  | condition c => exact absurd rfl other
  | _ => rfl

/-- The clauses that are read are those that were stored. -/
theorem clauses_reloaded (c : Config) : c.reloaded.clauses = c.clauses := by
  cases c with
  | condition c => exact ConditionConfig.canonical_canonical _
  | _ => rfl

/-- What is salvaged of stored settings are the settings. -/
theorem salvage_document {c : Config} (h : c.Apart) (fallback : Config) :
    salvage c.kind fallback (c.document .dropped) = c.reloaded := by
  by_cases condition : c.kind = .condition
  · cases c with
    | condition c =>
      have regular : Fields.get? c.extra ConditionConfig.clausesKey.written = none :=
        h.written _ List.mem_cons_self
      exact congrArg (fun clauses => Config.condition { clauses })
        (ConditionConfig.canonical_members regular)
    | _ => cases condition
  · have plain : salvage c.kind fallback (c.document .dropped)
        = salvageFields c.kind fallback (c.document .dropped).fields := by
      cases c with
      | condition c => exact absurd rfl condition
      | _ => rfl
    rw [plain, document_eq, Document.fields_object, salvageFields, decode_stored h condition]

theorem apart_of_extra_eq_nil {c : Config} (plain : c.extra = []) : c.Apart := by
  have proper := proper_keys c.kind
  rw [← map_fst_members] at proper
  exact ⟨proper, fun _ _ => plain ▸ rfl, fun _ _ _ => plain ▸ rfl⟩

/-- Settings that were read from a row whose members hold something have no foreign member in the place
of a field. -/
theorem apart_of_decode {kind : NodeKind} {row : Fields} {c : Config} (solid : row.Solid)
    (other : kind ≠ .condition) (h : decode kind row = .valid c) : c.Apart := by
  obtain ⟨rfl, read, unclaimed⟩ := decode_eq_valid_iff.1 h
  have proper := proper_keys c.kind
  rw [← map_fst_members] at proper unclaimed
  rw [Apart, unclaimed]
  refine Fields.apart_unclaimed proper ?_
  have absent {α : Type} {check : Document → Checked α} {key : Key} {a : Option α}
      (h : Checked.field row key (.orNull check) none = .valid a) : a = none → Fields.get? row key.other = none :=
    Checked.absent_of_field solid h
  cases c <;> simp [fields, Field.Read, Config.kind] at read
  case trigger c =>
    simpa [members, Config.kind, keys, stored, TriggerConfig.keys, TriggerConfig.row]
      using ⟨absent read.2.1, absent read.2.2⟩
  case sendEmail c =>
    simpa [members, Config.kind, keys, stored, EmailConfig.keys, EmailConfig.row]
      using ⟨absent read.2.2.1, absent read.2.2.2.1⟩
  case wait c =>
    simpa [members, Config.kind, keys, stored, WaitConfig.keys, WaitConfig.row]
      using ⟨absent read.2.2.1, absent read.2.2.2.1, absent read.2.2.2.2.2⟩
  case condition c => exact absurd rfl other
  case split c => simp [members, Config.kind, keys, stored, SplitConfig.keys, SplitConfig.row]
  case webhook c =>
    simpa [members, Config.kind, keys, stored, WebhookConfig.keys, WebhookConfig.row]
      using absent read.2.2
  case exit c => simp [members, Config.kind, keys, stored, ExitConfig.keys, ExitConfig.row]

theorem apart_standardConfig (kind : NodeKind) : kind.standardConfig.Apart := by
  cases kind <;> exact apart_of_extra_eq_nil rfl

theorem apart_salvageFields {kind : NodeKind} {row : Fields} (solid : row.Solid)
    (other : kind ≠ .condition) : (salvageFields kind kind.standardConfig row).Apart := by
  unfold salvageFields
  split
  · next decoded => exact apart_of_decode solid other decoded
  · split
    · next decoded => exact apart_of_decode (solid.without _) other decoded
    · exact apart_standardConfig kind

/-- Whatever is salvaged from members that hold something is read as it is stored. -/
theorem apart_salvage (kind : NodeKind) {d : Document} (solid : d.fields.Solid) :
    (salvage kind kind.standardConfig d).Apart := by
  cases kind with
  | condition => exact apart_of_extra_eq_nil rfl
  | _ => exact apart_salvageFields solid (by decide)

/-- What was salvaged is salvaged again from what is stored. -/
theorem document_salvage (kind : NodeKind) {d : Document} (solid : d.fields.Solid) :
    (salvage kind kind.standardConfig d).reloaded.document .dropped
      = (salvage kind kind.standardConfig d).document .dropped := by
  have apart := apart_salvage kind solid
  have kinds := kind_salvage kind.kind_standardConfig d
  by_cases condition : kind = .condition
  · subst condition
    show (Config.condition _).document .dropped = (Config.condition _).document .dropped
    rw [ConditionConfig.canonical_canonical]
  · exact document_reloaded apart fun same => condition (kinds.symm.trans same)

end Config

end Journey
