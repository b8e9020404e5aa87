import Journey.Config.Amended
import Journey.Proofs.Config.Decoded

/-!
# Journey.Proofs.Config.Amended -- what a patch leaves as it was

Settings are patched by writing every field out under its other spelling, laying the patch over that and
checking the result.  Foreign members are written out next to the fields.  One of them may have the other
spelling of a field, for an object with both spellings of a field keeps the second one as a foreign member;
it is then laid over the field, and what was foreign is taken for the field (`Fields.find?_laid`).

Main statement: a field that a patch does not name holds what it held, unless a foreign member has its other
spelling, and all other foreign members that it does not name are kept; the empty patch changes nothing
exactly if there is no such member, in the settings or in a clause of them (`keeps_amend`).  Clauses that are
not named stay as they are one by one, but for those with such a member of their own.  Of a field, what
settings hold in it is compared (`Config.Field`), with the open length of a pause written out.
-/

namespace Journey

set_option autoImplicit false

/-! ## Rows with the other spellings -/

namespace Fields

/-- The members of declared fields, each in its other spelling. -/
def respelled (ds : List (Key × Document)) : Fields := ds.map fun m => (m.1.other, m.2)

/-- The fields in their other spelling, with foreign members laid over them, and a patch over both. -/
def laid (ds : List (Key × Document)) (others patch : Fields) : Fields :=
  overlay (overlay (respelled ds) others) patch

/-- A member that is spelled like a field has the other spelling of it. -/
def Unwritten (declared : List Key) (row : Fields) : Prop :=
  ∀ k ∈ declared, ∀ s ∈ keys row, k.Spells s → s = k.other

/-- Members that a check of the fields may leave over: they have keys of their own, and none has the written
spelling of a field. -/
structure LeftOver (declared : List Key) (others : Fields) : Prop where
  distinct : (keys others).Nodup
  written : ∀ k ∈ declared, get? others k.written = none

/-- No member has the other spelling of a field. -/
def Unshadowed (declared : List Key) (others : Fields) : Prop := ∀ k ∈ declared, get? others k.other = none

/-- The keys of the object differ, and so do those of the objects in its clauses. -/
structure Distinct (row : Fields) : Prop where
  own : (keys row).Nodup
  clauses : ∀ d ∈ (getD row "clauses").items, (keys d.fields).Nodup

instance (row : Fields) : Decidable row.Distinct :=
  decidable_of_iff ((keys row).Nodup ∧ ∀ d ∈ (getD row "clauses").items, (keys d.fields).Nodup)
    ⟨fun both => ⟨both.1, both.2⟩, fun distinct => ⟨distinct.own, distinct.clauses⟩⟩

variable {declared : List Key} {ds : List (Key × Document)} {row others patch : Fields} {key : Key}
  {d : Document} {s : String}

theorem leftOver_unclaimed (distinct : (keys row).Nodup) : LeftOver declared (Key.unclaimed declared row) where
  distinct := (List.filter_sublist.map _).nodup distinct
  written _ mem := get?_unclaimed mem row

theorem unwritten_nil : Unwritten declared [] := nofun

theorem leftOver_nil : LeftOver declared [] := ⟨List.nodup_nil, fun _ _ => rfl⟩

theorem get?_overlay (distinct : (keys others).Nodup) (row : Fields) (s : String) :
    get? (overlay row others) s = (get? others s).or (get? row s) := by
  induction others generalizing row with
  | nil => rfl
  | cons m others ih =>
    obtain ⟨k, v⟩ := m
    obtain ⟨new, distinct⟩ := List.nodup_cons.1 distinct
    show get? (overlay (set row k v) others) s = _
    rw [ih distinct, get?_set, get?_cons]
    by_cases same : s = k
    · rw [if_pos same, if_pos same, same, get?_eq_none_iff.2 new]
      rfl
    · rw [if_neg same, if_neg same]

theorem keys_respelled (ds : List (Key × Document)) :
    keys (respelled ds) = (ds.map (·.1)).map (·.other) := by
  simp [keys, respelled]

section Separate

variable (separate : Key.Separate (ds.map (·.1)))

include separate

theorem get?_respelled (mem : (key, d) ∈ ds) : get? (respelled ds) key.other = some d := by
  refine get?_of_mem ?_ (List.mem_map.2 ⟨_, mem, rfl⟩)
  rw [keys_respelled]
  exact List.Nodup.map_on (fun k memK l memL same => separate.eq memK memL (.inr rfl) (.inr same))
    separate.nodup

/-- A field is written under its other spelling only. -/
theorem get?_respelled_of_ne (mem : key ∈ ds.map (·.1)) (spells : key.Spells s) (ne : s ≠ key.other) :
    get? (respelled ds) s = none := by
  rw [get?_eq_none_iff, keys_respelled]
  intro there
  obtain ⟨l, memL, same⟩ := List.mem_map.1 there
  exact ne (separate.eq mem memL spells (.inr same.symm) ▸ same.symm)

variable (left : LeftOver (ds.map (·.1)) others) (unwritten : Unwritten (ds.map (·.1)) patch)

include left unwritten

/-- Nothing is laid under a spelling of a field that is not the other one. -/
theorem get?_laid_of_ne (mem : key ∈ ds.map (·.1)) (spells : key.Spells s) (ne : s ≠ key.other) :
    get? (laid ds others patch) s = none := by
  have unnamed : get? patch s = none := get?_eq_none_iff.2 fun there => ne (unwritten key mem s there spells)
  have written : s = key.written := spells.resolve_right ne
  rw [laid, get?_overlay_of_absent unnamed, get?_overlay left.distinct, written, left.written key mem,
    ← written, get?_respelled_of_ne separate mem spells ne]
  rfl

/-- A field is found under its other spelling: what was left over stands in its place. -/
theorem find?_laid (mem : (key, d) ∈ ds) :
    ∃ v, key.find? (laid ds others patch) = some (key.other, v)
      ∧ (get? patch key.other = none → v = (get? others key.other).getD d) := by
  have declared : key ∈ ds.map (·.1) := List.mem_map_of_mem mem
  have under : key.other ∈ keys (laid ds others patch) := by
    refine mem_keys_overlay.2 (.inl (mem_keys_overlay.2 (.inl ?_)))
    exact List.mem_map_of_mem (List.mem_map.2 ⟨_, mem, rfl⟩)
  obtain ⟨v, found⟩ := Option.ne_none_iff_exists'.1 fun missing => get?_eq_none_iff.1 missing under
  refine ⟨v, ?_, fun unnamed => ?_⟩
  · by_cases word : key.written = key.other
    · rw [← word] at found ⊢
      exact Key.find?_written found
    · exact Key.find?_other (get?_laid_of_ne separate left unwritten declared (.inl rfl) word) found
  · rw [laid, get?_overlay_of_absent unnamed, get?_overlay left.distinct, get?_respelled separate mem] at found
    cases shadow : get? others key.other <;> rw [shadow] at found <;> cases found <;> rfl

theorem unclaimed_laid : Key.unclaimed (ds.map (·.1)) (laid ds others patch)
    = without (laid ds others patch) (keys (respelled ds)) := by
  have taken : (ds.map (·.1)).filterMap (fun k => (k.find? (laid ds others patch)).map (·.1))
      = keys (respelled ds) := by
    rw [keys_respelled, List.filterMap_eq_map_iff_forall_eq_some]
    intro k mem
    obtain ⟨⟨_, d⟩, there, rfl⟩ := List.mem_map.1 mem
    obtain ⟨v, found, -⟩ := find?_laid separate left unwritten there
    rw [found]
    rfl
  rw [Key.unclaimed, taken, without]

/-- Nothing that is spelled like a field is left over. -/
theorem get?_unclaimed_laid_of_spells (mem : key ∈ ds.map (·.1)) (spells : key.Spells s) :
    get? (Key.unclaimed (ds.map (·.1)) (laid ds others patch)) s = none := by
  rw [unclaimed_laid separate left unwritten, get?_without, ite_eq_left_iff]
  refine fun free => get?_laid_of_ne separate left unwritten mem spells fun same => free ?_
  rw [keys_respelled, same]
  exact List.mem_map_of_mem mem

/-- Of the rest, what a patch does not name is left over as it was. -/
theorem get?_unclaimed_laid (foreign : s ∉ Key.spellings (ds.map (·.1))) (unnamed : s ∉ keys patch) :
    get? (Key.unclaimed (ds.map (·.1)) (laid ds others patch)) s = get? others s := by
  have free : s ∉ keys (respelled ds) := by
    rw [keys_respelled]
    intro there
    obtain ⟨k, mem, same⟩ := List.mem_map.1 there
    exact foreign (Key.mem_spellings_iff.2 ⟨k, mem, .inr same.symm⟩)
  rw [unclaimed_laid separate left unwritten, get?_without, if_neg free, laid,
    get?_overlay_of_absent (get?_eq_none_iff.2 unnamed), get?_overlay left.distinct, get?_eq_none_iff.2 free,
    Option.or_none]

omit unwritten

/-- What was left over is left over again if nothing of it has the other spelling of a field. -/
theorem unclaimed_laid_nil (clear : Unshadowed (ds.map (·.1)) others) :
    Key.unclaimed (ds.map (·.1)) (laid ds others []) = others := by
  have apart : ∀ k ∈ keys others, k ∉ keys (respelled ds) := by
    intro s mem again
    rw [keys_respelled] at again
    obtain ⟨k, there, rfl⟩ := List.mem_map.1 again
    exact get?_eq_none_iff.1 (clear k there) mem
  have whole : laid ds others [] = respelled ds ++ others := by
    have distinct : (keys ([] ++ others)).Nodup := left.distinct
    have behind := overlay_append apart []
    rwa [List.append_nil, overlay_of_nodup distinct] at behind
  rw [unclaimed_laid separate left unwritten_nil, whole, without,
    List.filter_append]
  have front : (respelled ds).filter (fun m => !(keys (respelled ds)).contains m.1) = [] := by
    rw [List.filter_eq_nil_iff]
    intro m mem
    have listed : m.1 ∈ keys (respelled ds) := List.mem_map_of_mem mem
    simpa using listed
  have rest : others.filter (fun m => !(keys (respelled ds)).contains m.1) = others := by
    rw [List.filter_eq_self]
    intro m mem
    have free := apart m.1 (List.mem_map_of_mem mem)
    simpa using free
  rw [front, rest, List.nil_append]

end Separate

end Fields

namespace Checked

variable {α : Type}

theorem choice_text {named? : String → Option α} {name : String} {a : α} (named : named? name = some a) :
    choice named? (.text name) = .valid a :=
  congrArg ofOption named

theorem orNull_ofText? (t : Option String) : orNull text (.ofText? t) = .valid t := by cases t <;> rfl

theorem orNull_ofInt? (n : Option Int) : orNull whole (.ofInt? n) = .valid n := by cases n <;> rfl

/-- The values of checked items are theirs, one by one. -/
theorem forall₂_of_items {β : Type} {check : β → Checked α} {start : Nat} {bs : List β} {as : List α}
    (h : items check start bs = .valid as) : List.Forall₂ (fun b a => check b = .valid a) bs as := by
  induction bs generalizing start as with
  | nil =>
    cases h
    exact .nil
  | cons b bs ih =>
    obtain ⟨_, rest, head, later, rfl⟩ := seq_eq_valid_iff.1 h
    obtain ⟨a, checked, rfl⟩ := map_eq_valid_iff.1 head
    exact .cons (under_eq_valid_iff.1 checked) (ih later)

end Checked

/-! ## Clauses -/

namespace Clause

variable {c c' : Clause} {row : Fields}

theorem separate_members (c : Clause) : Key.Separate (c.members.map (·.1)) := by
  show Key.Separate keys
  decide

theorem row_other (c : Clause) : c.row Key.other = Fields.laid c.members c.extra [] := rfl

theorem leftOver_of_decode (distinct : (Fields.keys row).Nodup) (h : decode row = .valid c) :
    Fields.LeftOver keys c.extra := by
  rw [extra_of_decode h]
  exact Fields.leftOver_unclaimed distinct

/-- A clause without foreign members that are spelled like a field is read from its other spelling. -/
theorem decode_row_other (left : Fields.LeftOver keys c.extra) (clear : Fields.Unshadowed keys c.extra) :
    decode (c.row Key.other) = .valid c := by
  have unclaimed : Key.unclaimed keys _ = _ := Fields.unclaimed_laid_nil c.separate_members left clear
  have field {α : Type} {key : Key} {check : Document → Checked α} {default a : α} {d : Document}
      (position : Nat) (there : c.members[position]? = some (key, d)) (checked : check d = .valid a) :
      Checked.field (Fields.laid c.members c.extra []) key check default = .valid a := by
    have mem := List.mem_of_getElem? there
    have declared : key ∈ keys := List.mem_map_of_mem (f := (·.1)) mem
    obtain ⟨v, found, own⟩ := Fields.find?_laid c.separate_members left Fields.unwritten_nil mem
    rw [Checked.field_of_found found, own rfl, clear key declared]
    exact Checked.under_eq_valid_iff.2 checked
  rw [row_other, decode, unclaimed, field 0 rfl (Checked.text_text c.id),
    field 1 rfl (Checked.choice_text (Rule.named?_name c.rule)),
    field 2 rfl (Checked.text_text c.propertyKey),
    field 3 rfl (Checked.choice_text (Comparator.named?_name c.comparator)),
    field 4 rfl (Checked.text_text c.value)]
  rfl

/-- A clause is read as it was from its other spelling exactly if it has no foreign member that is spelled like
a field: what is read has none. -/
theorem eq_iff_of_decode (left : Fields.LeftOver keys c.extra) (h : decode (c.row Key.other) = .valid c') :
    c' = c ↔ Fields.Unshadowed keys c.extra := by
  constructor
  · rintro rfl k mem
    rw [extra_of_decode h, row_other]
    exact Fields.get?_unclaimed_laid_of_spells c'.separate_members left Fields.unwritten_nil mem (.inr rfl)
  · intro clear
    exact Checked.valid.inj (h.symm.trans (decode_row_other left clear))

end Clause

/-! ## Settings that are patched -/

namespace Config

/-- The clauses of a condition as they are, none for all other settings. -/
def ownClauses : Config → List Clause
  | .condition c => c.clauses
  | _ => []

variable {kind : NodeKind} {row patch : Fields} {c d : Config} {f : Field} {s : String}

@[simp] theorem extra_stated (c : Config) : c.stated.extra = c.extra := by cases c <;> rfl

@[simp] theorem ownClauses_stated (c : Config) : c.stated.ownClauses = c.ownClauses := by cases c <;> rfl

/-- The declared fields with what is written for them, clauses in the other spelling. -/
def respelled (c : Config) : List (Key × Document) :=
  (keys c.kind).zip
    (match c with
    | .condition c => [.list (c.clauses.map fun clause => .object (clause.row Key.other))]
    | c => c.stored.map (·.2))

/-- The patch with the other spellings. -/
def respell (kind : NodeKind) (patch : Fields) : Fields := patch.map fun m => (otherSpelling (keys kind) m.1, m.2)

theorem map_fst_respelled (c : Config) : c.respelled.map (·.1) = keys c.kind := by cases c <;> rfl

theorem separate_respelled (c : Config) : Key.Separate (c.respelled.map (·.1)) := by
  rw [map_fst_respelled]
  exact separate_keys c.kind

theorem amend_eq (c : Config) (patch : Fields) :
    c.amend patch = decode c.kind (Fields.laid c.respelled c.extra (respell c.kind patch)) := by
  cases c <;> rfl

/-- A member of a patch that is spelled like a field gets the other spelling of it. -/
theorem mem_keys_respell (mem : s ∈ Fields.keys (respell kind patch)) :
    (s ∈ Fields.keys patch ∧ ∀ k ∈ keys kind, s ≠ k.written)
      ∨ ∃ k ∈ keys kind, s = k.other ∧ k.written ∈ Fields.keys patch := by
  obtain ⟨n, there, rfl⟩ := List.mem_map.1 mem
  obtain ⟨m, memM, rfl⟩ := List.mem_map.1 there
  have listed : m.1 ∈ Fields.keys patch := List.mem_map_of_mem memM
  show (otherSpelling (keys kind) m.1 ∈ _ ∧ ∀ k ∈ _, otherSpelling (keys kind) m.1 ≠ _)
    ∨ ∃ k ∈ _, otherSpelling (keys kind) m.1 = _ ∧ _
  rw [otherSpelling]
  cases found : (keys kind).find? fun k => k.written == m.1 with
  | none =>
    refine .inl ⟨listed, fun k memK same => ?_⟩
    have differs := List.find?_eq_none.1 found k memK
    exact differs (beq_iff_eq.2 same.symm)
  | some k =>
    have same : k.written = m.1 := by simpa using List.find?_some found
    exact .inr ⟨k, List.mem_of_find?_eq_some found, rfl, same ▸ listed⟩

theorem unwritten_respell (c : Config) (patch : Fields) :
    Fields.Unwritten (c.respelled.map (·.1)) (respell c.kind patch) := by
  rw [map_fst_respelled]
  intro k mem s there spells
  rcases mem_keys_respell there with ⟨-, foreign⟩ | ⟨l, memL, rfl, -⟩
  · exact spells.resolve_left (foreign k mem)
  · rw [(separate_keys c.kind).eq mem memL spells (.inr rfl)]

theorem get?_respell_of_unnamed {k : Key} (mem : k ∈ keys kind) (unnamed : k.find? patch = none) :
    Fields.get? (respell kind patch) k.other = none := by
  obtain ⟨written, other⟩ := Key.find?_eq_none_iff.1 unnamed
  rw [Fields.get?_eq_none_iff] at written other ⊢
  intro there
  rcases mem_keys_respell there with ⟨named, -⟩ | ⟨l, memL, same, named⟩
  · exact other named
  · exact written ((separate_keys kind).eq mem memL (.inr rfl) (.inr same) ▸ named)

/-- What is foreign to the settings, and to clauses of them, may be left over by a check. -/
structure Orderly (c : Config) : Prop where
  own : Fields.LeftOver (keys c.kind) c.extra
  clauses : ∀ clause ∈ c.ownClauses, Fields.LeftOver Clause.keys clause.extra

theorem Orderly.leftOver (h : c.Orderly) : Fields.LeftOver (c.respelled.map (·.1)) c.extra := by
  rw [map_fst_respelled]
  exact h.own

theorem orderly_of_decode (distinct : row.Distinct) (h : decode kind row = .valid c) : c.Orderly := by
  refine ⟨?_, ?_⟩
  · rw [extra_of_decode h, kind_of_decode h]
    exact Fields.leftOver_unclaimed distinct.own
  · intro clause mem
    cases c with
    | condition c =>
      obtain rfl : NodeKind.condition = kind := kind_of_decode h
      obtain ⟨_, decoded, same⟩ := Checked.map_eq_valid_iff.1 h
      cases same
      rcases Checked.of_word (ConditionConfig.decode_eq_valid_iff.1 decoded).1 with default | checked
      · change clause ∈ c.clauses at mem
        rw [default, List.mem_singleton] at mem
        rw [mem]
        exact Fields.leftOver_nil
      · obtain ⟨item, there, read⟩ := Checked.of_list checked clause mem
        exact Clause.leftOver_of_decode (distinct.clauses item there) (Checked.of_object read)
    | _ => cases mem

/-- No foreign member has the other spelling of a field, neither of the settings nor of a clause of them. -/
structure Unshadowed (c : Config) : Prop where
  own : Fields.Unshadowed (keys c.kind) c.extra
  clauses : ∀ clause ∈ c.ownClauses, Fields.Unshadowed Clause.keys clause.extra

/-- What is written for a field is read as what the settings hold in it. -/
theorem reads_respelled (left : ∀ clause ∈ c.ownClauses, Fields.LeftOver Clause.keys clause.extra)
    (clear : ∀ clause ∈ c.ownClauses, Fields.Unshadowed Clause.keys clause.extra) :
    ∀ f ∈ fields c.kind, ∃ w a, (f.key, w) ∈ c.respelled ∧ f.check w = .valid a ∧ f.held c.stated = some a := by
  have field {f : Field} {w : Document} {a : f.Value} (position : Nat)
      (there : c.respelled[position]? = some (f.key, w)) (checked : f.check w = .valid a)
      (held : f.held c.stated = some a) :
      ∃ w a, (f.key, w) ∈ c.respelled ∧ f.check w = .valid a ∧ f.held c.stated = some a :=
    ⟨w, a, List.mem_of_getElem? there, checked, held⟩
  have nil : ∀ f ∈ ([] : List Field),
      ∃ w a, (f.key, w) ∈ c.respelled ∧ f.check w = .valid a ∧ f.held c.stated = some a := nofun
  cases c with
  | trigger c =>
    refine List.forall_mem_cons.2 ⟨?_, List.forall_mem_cons.2 ⟨?_, List.forall_mem_cons.2 ⟨?_, nil⟩⟩⟩
    · exact field 0 rfl (Checked.choice_text (TriggerType.named?_name c.triggerType)) rfl
    · exact field 1 rfl (Checked.orNull_ofText? c.listId) rfl
    · exact field 2 rfl (Checked.orNull_ofText? c.eventName) rfl
  | sendEmail c =>
    refine List.forall_mem_cons.2 ⟨?_, List.forall_mem_cons.2 ⟨?_, List.forall_mem_cons.2 ⟨?_,
      List.forall_mem_cons.2 ⟨?_, List.forall_mem_cons.2 ⟨?_, List.forall_mem_cons.2 ⟨?_, nil⟩⟩⟩⟩⟩⟩
    · exact field 0 rfl (Checked.text_text c.subject) rfl
    · exact field 1 rfl (Checked.text_text c.body) rfl
    · exact field 2 rfl (Checked.orNull_ofText? c.senderConfigId) rfl
    · exact field 3 rfl (Checked.orNull_ofText? c.templateId) rfl
    · exact field 4 rfl (Checked.reads_texts c.personalizationTokens) rfl
    · exact field 5 rfl (Checked.flag_bool c.threadWithPrevious) rfl
  | wait c =>
    refine List.forall_mem_cons.2 ⟨?_, List.forall_mem_cons.2 ⟨?_, List.forall_mem_cons.2 ⟨?_,
      List.forall_mem_cons.2 ⟨?_, List.forall_mem_cons.2 ⟨?_, List.forall_mem_cons.2 ⟨?_, nil⟩⟩⟩⟩⟩⟩
    · exact field 0 rfl (reads_stated c.length) rfl
    · exact field 1 rfl (Checked.choice_text (WaitUnit.named?_name c.unit)) rfl
    · exact field 2 rfl (Checked.orNull_ofText? c.timeWindowStart) rfl
    · exact field 3 rfl (Checked.orNull_ofText? c.timeWindowEnd) rfl
    · exact field 4 rfl (Checked.flag_bool c.randomized) rfl
    · exact field 5 rfl (Checked.orNull_ofInt? c.randomMaxMinutes) rfl
  | condition c =>
    have each : ∀ clause ∈ c.clauses,
        Checked.object Clause.decode (.object (clause.row Key.other)) = .valid (id clause) :=
      fun clause mem => Clause.decode_row_other (left clause mem) (clear clause mem)
    have read := Checked.items_map id 0 each
    rw [List.map_id] at read
    exact List.forall_mem_cons.2 ⟨field 0 rfl read rfl, nil⟩
  | split c =>
    refine List.forall_mem_cons.2 ⟨?_, List.forall_mem_cons.2 ⟨?_, nil⟩⟩
    · exact field 0 rfl (Checked.real_float c.percentageA) rfl
    · exact field 1 rfl (Checked.real_float c.percentageB) rfl
  | webhook c =>
    refine List.forall_mem_cons.2 ⟨?_, List.forall_mem_cons.2 ⟨?_, List.forall_mem_cons.2 ⟨?_, nil⟩⟩⟩
    · exact field 0 rfl (Checked.text_text c.url) rfl
    · exact field 1 rfl (Checked.choice_text (CallMethod.named?_name c.method)) rfl
    · exact field 2 rfl (Checked.orNull_ofText? c.payloadTemplate) rfl
  | exit c =>
    exact List.forall_mem_cons.2
      ⟨field 0 rfl (Checked.choice_text (ExitReason.named?_name c.reason)) rfl, nil⟩

/-- A field that the patch does not name holds what is read from a foreign member with its other spelling, if
there is one, and from what was written for it otherwise. -/
theorem held_of_amend (orderly : c.Orderly) (h : c.amend patch = .valid d) (mem : f ∈ fields c.kind)
    (unnamed : f.key.find? patch = none) {w : Document} (written : (f.key, w) ∈ c.respelled) :
    ∃ a, f.check ((Fields.get? c.extra f.key.other).getD w) = .valid a ∧ f.held d = some a := by
  obtain ⟨v, found, own⟩ := Fields.find?_laid (separate_respelled c) orderly.leftOver
    (unwritten_respell c patch) written
  rw [own (get?_respell_of_unnamed (Field.key_mem_keys mem) unnamed)] at found
  rw [amend_eq] at h
  obtain ⟨a, read, held⟩ := (decode_eq_valid_iff.1 h).2.1 f mem
  rw [Checked.field_of_found found] at read
  exact ⟨a, Checked.under_eq_valid_iff.1 read, held⟩

theorem extra_of_amend (h : c.amend patch = .valid d) : d.extra
    = Key.unclaimed (c.respelled.map (·.1)) (Fields.laid c.respelled c.extra (respell c.kind patch)) := by
  rw [amend_eq] at h
  rw [extra_of_decode h, map_fst_respelled]

/-- Clauses that the patch does not name are read from their other spelling. -/
theorem ownClauses_of_amend (orderly : c.Orderly) (h : c.amend patch = .valid d)
    (unnamed : ConditionConfig.clausesKey.find? patch = none) :
    List.Forall₂ (fun clause clause' => Clause.decode (clause.row Key.other) = .valid clause')
      c.ownClauses d.ownClauses := by
  have kinds := kind_of_amend h
  cases c with
  | condition c =>
    obtain ⟨a, read, held⟩ := held_of_amend orderly h (f := _) List.mem_cons_self unnamed List.mem_cons_self
    have absent : Fields.get? c.extra ConditionConfig.clausesKey.other = none :=
      orderly.own.written ConditionConfig.clausesKey List.mem_cons_self
    change Checked.list _ ((Fields.get? c.extra _).getD _) = _ at read
    rw [absent, Option.getD_none] at read
    cases d with
    | condition d =>
      cases held
      exact List.forall₂_map_left_iff.1 (Checked.forall₂_of_items read)
    | _ => cases kinds
  | _ => cases d <;> first | exact .nil | cases kinds

/-- What settings that were patched have of those before. -/
structure Keeps (c : Config) (patch : Fields) (d : Config) : Prop where
  /-- A field that is not named holds what it held, if no foreign member has its other spelling. -/
  held : ∀ f ∈ fields c.kind, f.key.find? patch = none → Fields.get? c.extra f.key.other = none →
    (∀ clause ∈ c.ownClauses, Fields.Unshadowed Clause.keys clause.extra) → f.held d = f.held c.stated
  /-- If one has, the field holds what is read from that. -/
  shadowed : ∀ f ∈ fields c.kind, f.key.find? patch = none → ∀ v, Fields.get? c.extra f.key.other = some v →
    ∃ a, f.check v = .valid a ∧ f.held d = some a
  /-- Of clauses that are not named, those stay as they are that have no foreign member in the other spelling of
  a field. -/
  clauses : ConditionConfig.clausesKey.find? patch = none →
    List.Forall₂ (fun clause clause' => clause' = clause ↔ Fields.Unshadowed Clause.keys clause.extra)
      c.ownClauses d.ownClauses
  /-- A foreign member that is not named is kept, unless it is spelled like a field. -/
  foreign : ∀ s ∉ Fields.keys patch, Fields.get? d.extra s
    = if s ∈ Key.spellings (keys c.kind) then none else Fields.get? c.extra s

theorem keeps_of_amend (orderly : c.Orderly) (h : c.amend patch = .valid d) : c.Keeps patch d := by
  refine ⟨fun f mem unnamed absent clear => ?_, fun f mem unnamed v shadow => ?_, fun unnamed => ?_,
    fun s unnamed => ?_⟩
  · obtain ⟨w, a, written, read, held⟩ := reads_respelled orderly.clauses clear f mem
    obtain ⟨b, read', held'⟩ := held_of_amend orderly h mem unnamed written
    rw [absent, Option.getD_none, read] at read'
    cases read'
    rw [held, held']
  · have declared := Field.key_mem_keys mem
    rw [← map_fst_respelled] at declared
    obtain ⟨⟨k, w⟩, written, same⟩ := List.mem_map.1 declared
    obtain rfl : k = f.key := same
    have read := held_of_amend orderly h mem unnamed written
    rwa [shadow, Option.getD_some] at read
  · have read := ownClauses_of_amend orderly h unnamed
    rw [List.forall₂_iff_zip] at read ⊢
    refine ⟨read.1, fun {clause clause'} both => ?_⟩
    exact Clause.eq_iff_of_decode (orderly.clauses clause (List.of_mem_zip both).1) (read.2 both)
  · have separate := separate_respelled c
    have unwritten := unwritten_respell c patch
    rw [extra_of_amend h]
    split
    · next spelled =>
      rw [← map_fst_respelled] at spelled
      obtain ⟨k, mem, spells⟩ := Key.mem_spellings_iff.1 spelled
      exact Fields.get?_unclaimed_laid_of_spells separate orderly.leftOver unwritten mem spells
    · next foreign =>
      refine Fields.get?_unclaimed_laid separate orderly.leftOver unwritten ?_ fun there => ?_
      · rwa [map_fst_respelled]
      · rcases mem_keys_respell there with ⟨named, -⟩ | ⟨k, mem, same, -⟩
        · exact unnamed named
        · exact foreign (Key.mem_spellings_iff.2 ⟨k, mem, .inr same⟩)

/-- Settings without foreign members that are spelled like a field are read as they are written. -/
theorem amend_nil (orderly : c.Orderly) (clear : c.Unshadowed) : c.amend [] = .valid c.stated := by
  have own := clear.own
  rw [amend_eq, decode_eq_valid_iff]
  refine ⟨kind_stated c, fun f mem => ?_, ?_⟩
  · obtain ⟨w, a, written, read, held⟩ := reads_respelled orderly.clauses clear.clauses f mem
    obtain ⟨v, found, same⟩ := Fields.find?_laid (separate_respelled c) orderly.leftOver
      Fields.unwritten_nil written
    rw [same rfl, own f.key (Field.key_mem_keys mem)] at found
    refine ⟨a, ?_, held⟩
    rw [respell, List.map_nil, Checked.field_of_found found]
    exact Checked.under_eq_valid_iff.2 read
  · rw [← map_fst_respelled] at own ⊢
    exact (extra_stated c).trans
      (Fields.unclaimed_laid_nil (separate_respelled c) orderly.leftOver own).symm

/-- Settings that are read as they are written have no foreign members that are spelled like a field. -/
theorem unshadowed_of_amend_nil (orderly : c.Orderly) (h : c.amend [] = .valid c.stated) : c.Unshadowed := by
  have keeps := keeps_of_amend orderly h
  refine ⟨fun k mem => ?_, fun clause mem => ?_⟩
  · have gone := keeps.foreign k.other List.not_mem_nil
    rw [if_pos (Key.mem_spellings_iff.2 ⟨k, mem, .inr rfl⟩), extra_stated] at gone
    exact gone
  · have stay := keeps.clauses rfl
    rw [ownClauses_stated, List.forall₂_same] at stay
    exact (stay clause mem).1 rfl

/-- Settings that were read from an object keep what a patch does not name, but for fields with a foreign member
in their other spelling: they hold what that says, and it is foreign no longer.  The empty patch gives the
settings back exactly if there is no such member. -/
theorem keeps_amend (distinct : row.Distinct) (h : decode kind row = .valid c) :
    (∀ patch d, c.amend patch = .valid d → c.Keeps patch d)
      ∧ (c.amend [] = .valid c.stated ↔ c.Unshadowed) := by
  have orderly := orderly_of_decode distinct h
  exact ⟨fun _ _ amended => keeps_of_amend orderly amended, unshadowed_of_amend_nil orderly, amend_nil orderly⟩

/-- A patch of the method of a call keeps its address and a member that is not declared, but the template in the
other spelling takes the place of the template. -/
theorem keeps_amend_twoTemplates :
    let row : Fields :=
      [("url", .text "u"), ("payloadTemplate", .text "p"), ("payload_template", .text "q"), ("retries", .int 3)]
    let c : Config := .webhook
      { url := "u", payloadTemplate := some "p", extra := [("payload_template", .text "q"), ("retries", .int 3)] }
    let d : Config := .webhook
      { url := "u", method := .get, payloadTemplate := some "q", extra := [("retries", .int 3)] }
    row.Distinct ∧ decode .webhook row = .valid c ∧ c.amend [("method", .text "GET")] = .valid d
      ∧ c.Keeps [("method", .text "GET")] d ∧ ¬c.Unshadowed ∧ c.amend [] ≠ .valid c.stated := by
  intro row c d
  have distinct : row.Distinct := by decide
  have decoded : decode .webhook row = .valid c := rfl
  have amended : c.amend [("method", .text "GET")] = .valid d := rfl
  have keeps := keeps_amend distinct decoded
  have shadowed : ¬c.Unshadowed := fun clear =>
    nomatch clear.own WebhookConfig.payloadTemplateKey (by decide)
  exact ⟨distinct, decoded, amended, keeps.1 _ _ amended, shadowed, keeps.2.not.2 shadowed⟩

/-- Settings with both spellings of a field are not given back by the empty patch: the field takes the value of
the foreign member, which is gone. -/
theorem amend_nil_spelledTwice :
    let row : Fields := [("triggerType", .text "manual"), ("trigger_type", .text "custom_event")]
    let c : Config := .trigger { triggerType := .manual, extra := [("trigger_type", .text "custom_event")] }
    row.Distinct ∧ decode .trigger row = .valid c
      ∧ c.amend [] = .valid (.trigger { triggerType := .customEvent }) ∧ c.amend [] ≠ .valid c.stated := by
  refine ⟨by decide, rfl, rfl, fun same => ?_⟩
  cases same

end Config

end Journey
