import Journey.Config.Salvaged
import Journey.Proofs.Config.Decoded

/-!
# Journey.Proofs.Config.Salvaged -- settings that are mended field by field

Settings that do not pass their check lose the members of every field that has a fault, and what is left is
checked again.  Every fault stands under a spelling of its own field (`spells_of_fault`), and no two fields
share a spelling (`Key.Separate`), so a field loses its members exactly if its own check refuses them
(`Field.hit_iff`).  The second check therefore finds in each field what the first one found, or nothing
(`Field.field_sound`), and accepts it.

Main statement: where no field is spelled twice, each field of what is salvaged has the value of its member,
or its default if it has none or an invalid one, and all other members are kept (`mended_salvage`).
Nothing of the settings to fall back on is ever used.
-/

namespace Journey

set_option autoImplicit false

/-! ## Members that are dropped -/

namespace Key

variable {key : Key} {row : Fields} {s : String}

theorem spells_of_find? {d : Document} (found : key.find? row = some (s, d)) : key.Spells s := by
  unfold find? at found
  split at found
  · cases found
    exact .inl rfl
  · obtain ⟨_, -, same⟩ := Option.map_eq_some_iff.1 found
    cases same
    exact .inr rfl

theorem find?_without_of_spells {dropped : List String} (all : ∀ s, key.Spells s → s ∈ dropped) :
    key.find? (Fields.without row dropped) = none := by
  rw [find?_eq_none_iff, Fields.get?_without, Fields.get?_without, if_pos (all _ (.inl rfl)),
    if_pos (all _ (.inr rfl))]
  exact ⟨rfl, rfl⟩

theorem find?_without_of_apart {dropped : List String} (kept : ∀ s, key.Spells s → s ∉ dropped) :
    key.find? (Fields.without row dropped) = key.find? row := by
  rw [find?, Fields.get?_without, Fields.get?_without, if_neg (kept _ (.inl rfl)),
    if_neg (kept _ (.inr rfl)), find?]

/-- Some place lies in a member that is spelled like the field. -/
def hit (places : List Place) (key : Key) : Bool :=
  places.any fun p => p.head? == some key.written || p.head? == some key.other

theorem hit_iff_exists {places : List Place} :
    hit places key = true ↔ ∃ p ∈ places, ∃ s, p.head? = some s ∧ key.Spells s := by
  simp only [hit, List.any_eq_true, Bool.or_eq_true, beq_iff_eq]
  refine exists_congr fun p => and_congr_right fun _ => ?_
  constructor
  · rintro (written | other)
    · exact ⟨_, written, .inl rfl⟩
    · exact ⟨_, other, .inr rfl⟩
  · rintro ⟨s, first, rfl | rfl⟩
    · exact .inl first
    · exact .inr first

end Key

namespace Fields

/-- No field has a member under both of its spellings. -/
def SpelledOnce (keys : List Key) (row : Fields) : Prop :=
  ∀ k ∈ keys, k.written = k.other ∨ get? row k.written = none ∨ get? row k.other = none

instance (keys : List Key) (row : Fields) : Decidable (SpelledOnce keys row) :=
  inferInstanceAs (Decidable (∀ k ∈ keys, _ ∨ _ ∨ _))

variable {keys : List Key} {row : Fields} {key : Key} {s : String}

theorem SpelledOnce.find?_isSome (once : SpelledOnce keys row) (mem : key ∈ keys) (spells : key.Spells s)
    (there : s ∈ Fields.keys row) : ∃ d, key.find? row = some (s, d) := by
  have stated : get? row s ≠ none := fun missing => get?_eq_none_iff.1 missing there
  obtain ⟨d, found⟩ := Option.ne_none_iff_exists'.1 stated
  rcases spells with rfl | rfl
  · exact ⟨d, Key.find?_written found⟩
  · rcases once key mem with same | absent | absent
    · exact ⟨d, same ▸ Key.find?_written (same ▸ found)⟩
    · exact ⟨d, Key.find?_other absent found⟩
    · exact absurd absent stated

/-- The row without the members of fields that have faults. -/
def sound (row : Fields) (keys : List Key) (places : List Place) : Fields :=
  without row (Key.spellings (keys.filter (Key.hit places)))

theorem sound_nil (row : Fields) (keys : List Key) : row.sound keys [] = row := by
  have unhit : keys.filter (Key.hit []) = [] := List.filter_eq_nil_iff.2 fun _ _ => Bool.false_ne_true
  rw [sound, unhit]
  exact List.filter_eq_self.2 fun _ _ => rfl

/-- A field has lost its members if it has faults, and none otherwise. -/
theorem find?_sound (separate : Key.Separate keys) (mem : key ∈ keys) (row : Fields) (places : List Place) :
    key.find? (row.sound keys places) = if key.hit places then none else key.find? row := by
  split
  · next hit =>
    exact Key.find?_without_of_spells fun s spells =>
      Key.mem_spellings_iff.2 ⟨key, List.mem_filter.2 ⟨mem, hit⟩, spells⟩
  · next notHit =>
    refine Key.find?_without_of_apart fun s spells dropped => ?_
    obtain ⟨l, memL, spellsL⟩ := Key.mem_spellings_iff.1 dropped
    obtain ⟨memL, hit⟩ := List.mem_filter.1 memL
    exact notHit (separate.eq mem memL spells spellsL ▸ hit)

/-- Where no field is spelled twice, what no field takes of a row without the members of some fields is what
is not declared. -/
theorem unclaimed_sound (separate : Key.Separate keys) (once : SpelledOnce keys row) (places : List Place) :
    Key.unclaimed keys (row.sound keys places) = without row (Key.spellings keys) := by
  have taken (s : String) : s ∈ keys.filterMap (fun k => (k.find? (row.sound keys places)).map (·.1))
      ↔ ∃ k ∈ keys, k.hit places = false ∧ ∃ d, k.find? row = some (s, d) := by
    rw [List.mem_filterMap]
    refine exists_congr fun k => and_congr_right fun mem => ?_
    rw [find?_sound separate mem]
    cases k.hit places <;> simp
  rw [Key.unclaimed]
  generalize keys.filterMap (fun k => (k.find? (row.sound keys places)).map (·.1)) = claimed at taken ⊢
  rw [sound, without, List.filter_filter, without]
  refine List.filter_congr fun m mem => ?_
  rw [Bool.eq_iff_iff]
  simp only [Bool.and_eq_true, Bool.not_eq_true', List.contains_eq_mem, decide_eq_false_iff_not,
    Key.mem_spellings_iff, taken]
  constructor
  · rintro ⟨free, kept⟩ ⟨k, memK, spells⟩
    obtain ⟨d, found⟩ := once.find?_isSome memK spells (List.mem_map_of_mem mem)
    cases hit : k.hit places with
    | true => exact kept ⟨k, List.mem_filter.2 ⟨memK, hit⟩, spells⟩
    | false => exact free ⟨k, memK, hit, d, found⟩
  · intro foreign
    refine ⟨?_, ?_⟩
    · rintro ⟨k, memK, -, d, found⟩
      exact foreign ⟨k, memK, Key.spells_of_find? found⟩
    · rintro ⟨k, memK, spells⟩
      exact foreign ⟨k, (List.mem_filter.1 memK).1, spells⟩

end Fields

/-! ## Faults -/

namespace Checked

variable {α β : Type} {x : Checked α} {row : Fields} {key : Key} {check : Document → Checked α} {default : α}

@[simp] theorem faults_valid (a : α) : (valid a).faults = [] := rfl

@[simp] theorem faults_map (f : α → β) (x : Checked α) : (f <$> x).faults = x.faults := by
  cases x <;> rfl

@[simp] theorem faults_seq (f : Checked (α → β)) (x : Checked α) :
    (f <*> x).faults = f.faults ++ x.faults := by
  cases f <;> cases x <;> first | rfl | exact (List.append_nil _).symm

theorem faults_under (k : String) (x : Checked α) : (x.under k).faults = x.faults.map (k :: ·) := by
  cases x <;> rfl

/-- A refusal names a place. -/
def Placed (x : Checked α) : Prop := x ≠ faulty []

theorem Placed.eq_valid (h : x.Placed) (faultless : x.faults = []) : ∃ a, x = valid a := by
  cases x with
  | valid a => exact ⟨a, rfl⟩
  | faulty ps =>
    obtain rfl : ps = [] := faultless
    exact absurd rfl h

theorem placed_valid (a : α) : (valid a).Placed := nofun

theorem placed_fault : (fault : Checked α).Placed := nofun

theorem placed_ofOption (o : Option α) : (ofOption o).Placed := by
  cases o with
  | none => exact placed_fault
  | some a => exact placed_valid a

theorem Placed.map (h : x.Placed) (f : α → β) : (f <$> x).Placed := by
  cases x with
  | valid a => exact placed_valid _
  | faulty ps =>
    intro same
    cases same
    exact h rfl

theorem Placed.under (h : x.Placed) (k : String) : (x.under k).Placed := by
  cases x with
  | valid a => exact placed_valid a
  | faulty ps =>
    cases ps with
    | nil => exact absurd rfl h
    | cons p ps => nofun

theorem Placed.seq {f : Checked (α → β)} (hf : f.Placed) (h : x.Placed) : (f <*> x).Placed := by
  cases f <;> cases x
  · exact placed_valid _
  · intro same
    cases same
    exact h rfl
  · intro same
    cases same
    exact hf rfl
  · intro same
    obtain ⟨rfl, -⟩ := List.append_eq_nil_iff.1 (Checked.faulty.inj same)
    exact hf rfl

theorem placed_text (d : Document) : (text d).Placed := by
  cases d with
  | text s => exact placed_valid s
  | _ => exact placed_fault

theorem placed_flag (d : Document) : (flag d).Placed := by
  cases d with
  | bool b => exact placed_valid b
  | int _ | float _ | text _ => exact placed_ofOption _
  | _ => exact placed_fault

theorem placed_real (d : Document) : (real d).Placed := by
  cases d with
  | float _ | bool _ => exact placed_valid _
  | int _ | text _ => exact placed_ofOption _
  | _ => exact placed_fault

theorem placed_whole (d : Document) : (whole d).Placed := by
  cases d with
  | int _ | bool _ => exact placed_valid _
  | float _ | text _ => exact placed_ofOption _
  | _ => exact placed_fault

theorem placed_choice (named? : String → Option α) (d : Document) : (choice named? d).Placed := by
  cases d with
  | text s => exact placed_ofOption _
  | _ => exact placed_fault

theorem placed_orNull (placed : ∀ d, (check d).Placed) (d : Document) : (orNull check d).Placed := by
  cases d with
  | null => exact placed_valid _
  | _ => exact (placed _).map _

theorem placed_items (placed : ∀ d, (check d).Placed) (start : Nat) (ds : List Document) :
    (items check start ds).Placed := by
  induction ds generalizing start with
  | nil => exact placed_valid _
  | cons d ds ih => exact (((placed d).under _).map _).seq (ih (start + 1))

theorem placed_list (placed : ∀ d, (check d).Placed) (d : Document) : (list check d).Placed := by
  cases d with
  | list ds => exact placed_items placed 0 ds
  | _ => exact placed_fault

/-- Every fault of a field stands under a spelling of the field. -/
theorem spells_of_fault {p : Place} (mem : p ∈ (field row key check default).faults) :
    ∃ s, p.head? = some s ∧ key.Spells s := by
  cases found : key.find? row with
  | none =>
    rw [field_of_absent found] at mem
    cases mem
  | some m =>
    rw [field_of_found found, faults_under] at mem
    obtain ⟨q, -, rfl⟩ := List.mem_map.1 mem
    exact ⟨_, rfl, Key.spells_of_find? found⟩

end Checked

/-! ## Fields that are mended -/

namespace Config

variable {kind : NodeKind} {fs : List Field} {f : Field} {row : Fields}

/-- The value of the member of a field, if there is one and it is valid. -/
def Field.found (f : Field) (row : Fields) : Option f.Value :=
  (f.key.find? row).bind fun m => (f.check m.2).toOption

/-- The faults of a field. -/
def Field.faults (row : Fields) (f : Field) : List Place := (Checked.field row f.key f.check f.default).faults

/-- Of all faults, a field is hit by its own only. -/
theorem Field.hit_iff (separate : Key.Separate (fs.map (·.key))) (mem : f ∈ fs) :
    f.key.hit (fs.flatMap (·.faults row)) = true ↔ f.faults row ≠ [] := by
  rw [Key.hit_iff_exists]
  constructor
  · rintro ⟨p, memP, s, first, spells⟩
    obtain ⟨g, memG, own⟩ := List.mem_flatMap.1 memP
    obtain ⟨s', first', spells'⟩ := Checked.spells_of_fault own
    cases first.symm.trans first'
    have same := separate.eq (List.mem_map_of_mem mem) (List.mem_map_of_mem memG) spells spells'
    obtain rfl : f = g := List.inj_on_of_nodup_map separate.nodup mem memG same
    exact List.ne_nil_of_mem own
  · intro faulty
    obtain ⟨p, own⟩ := List.exists_mem_of_ne_nil _ faulty
    exact ⟨p, List.mem_flatMap.2 ⟨f, mem, own⟩, Checked.spells_of_fault own⟩

/-- Where the members of the fields with faults are gone, a field has its value if that was valid and its
default otherwise. -/
theorem Field.field_sound (separate : Key.Separate (fs.map (·.key))) (mem : f ∈ fs)
    (placed : ∀ d, (f.check d).Placed) :
    Checked.field (row.sound (fs.map (·.key)) (fs.flatMap (·.faults row))) f.key f.check f.default
      = .valid ((f.found row).getD f.default) := by
  have hit : f.key.hit (fs.flatMap (·.faults row)) = true ↔ f.faults row ≠ [] := hit_iff separate mem
  rw [Checked.field, Fields.find?_sound separate (List.mem_map_of_mem mem), found]
  cases there : f.key.find? row with
  | none => rw [ite_self, Option.bind_none, Option.getD_none]
  | some m =>
    obtain ⟨s, d⟩ := m
    rw [faults, Checked.field_of_found there, Checked.faults_under, ne_eq, List.map_eq_nil_iff] at hit
    cases checked : f.check d with
    | valid a =>
      rw [checked] at hit
      rw [if_neg fun there => hit.1 there rfl]
      simp only [checked, Option.bind_some]
      rfl
    | faulty ps =>
      have faulty : ¬ (f.check d).faults = [] := fun faultless => by
        obtain ⟨a, valid⟩ := (placed d).eq_valid faultless
        cases checked.symm.trans valid
      rw [if_pos (hit.2 faulty)]
      simp only [checked, Option.bind_some]
      rfl

/-! ## Settings that are mended -/

/-- All faults of settings are those of their fields. -/
theorem faults_decode (row : Fields) (kind : NodeKind) :
    (decode kind row).faults = (fields kind).flatMap (·.faults row) := by
  cases kind <;>
    simp [decode, fields, Field.faults, TriggerConfig.decode, EmailConfig.decode, WaitConfig.decode,
      ConditionConfig.decode, SplitConfig.decode, WebhookConfig.decode, ExitConfig.decode]

theorem placed_fields (other : kind ≠ .condition) : ∀ f ∈ fields kind, ∀ d, (f.check d).Placed := by
  have text? := Checked.placed_orNull Checked.placed_text
  cases kind with
  | trigger => simp [fields, Checked.placed_choice, text?]
  | sendEmail => simp [fields, Checked.placed_text, Checked.placed_flag, Checked.placed_list, text?]
  | wait =>
    have stated (d : Document) : (WaitConfig.stated d).Placed := (Checked.placed_real d).map some
    simp [fields, Checked.placed_choice, Checked.placed_flag, Checked.placed_orNull, Checked.placed_whole, stated,
      text?]
  | condition => exact absurd rfl other
  | split => simp [fields, Checked.placed_real]
  | webhook => simp [fields, Checked.placed_text, Checked.placed_choice, text?]
  | exit => simp [fields, Checked.placed_choice]

/-- Settings of a kind that are mended field by field: each has the value of its member if that is there and
valid, and is as in empty settings otherwise, and all members that are not declared are kept. -/
structure Mended (kind : NodeKind) (row : Fields) (c : Config) : Prop where
  kind_eq : c.kind = kind
  held : ∀ f ∈ fields kind, f.held c = (f.found row).or (f.held (empty kind))
  extra : c.extra = row.without (Key.spellings (keys kind))

/-- What is left of settings without the members of the fields that have faults passes the check. -/
theorem decode_sound (other : kind ≠ .condition) (once : Fields.SpelledOnce (keys kind) row) :
    ∃ c, decode kind (row.sound (keys kind) (decode kind row).faults) = .valid c ∧ Mended kind row c := by
  have field (f) (mem : f ∈ fields kind) : Checked.field (row.sound (keys kind) (decode kind row).faults) f.key
      f.check f.default = .valid ((f.found row).getD f.default) := by
    have separate := separate_keys kind
    rw [← map_key_fields] at separate
    rw [← map_key_fields, faults_decode]
    exact Field.field_sound separate mem (placed_fields other f mem)
  have unclaimed := Fields.unclaimed_sound (separate_keys kind) once (decode kind row).faults
  generalize row.sound (keys kind) (decode kind row).faults = left at field unclaimed ⊢
  obtain ⟨c, decoded⟩ := isValid_decode_iff.2 fun f mem => ⟨_, field f mem⟩
  obtain ⟨kind_eq, read, extra⟩ := decode_eq_valid_iff.1 decoded
  refine ⟨c, decoded, kind_eq, fun f mem => ?_, extra.trans unclaimed⟩
  obtain ⟨a, checked, held⟩ := read f mem
  cases (field f mem).symm.trans checked
  rw [held, held_empty kind f mem]
  cases f.found row <;> rfl

/-- Where no field is spelled twice, settings other than those of a condition are salvaged field by field, and
those to fall back on are never used. -/
theorem mended_salvage (other : kind ≠ .condition) (once : Fields.SpelledOnce (keys kind) row)
    (fallback : Config) : Mended kind row (salvage kind fallback (.object row)) := by
  obtain ⟨c, left, mended⟩ := decode_sound other once
  have fields : salvage kind fallback (.object row) = salvageFields kind fallback row := by
    cases kind with
    | condition => exact absurd rfl other
    | _ => rfl
  rw [fields, salvageFields]
  split
  · next whole checked =>
    rw [checked, Checked.faults_valid, Fields.sound_nil, checked] at left
    cases left
    exact mended
  · next places checked =>
    rw [checked] at left
    have again : decode kind (row.without (Key.spellings (damaged kind places))) = .valid c := left
    rw [again]
    exact mended

/-- A mail with two invalid members, one of them by an item of a list, keeps the others. -/
theorem mended_salvage_mail :
    let row : Fields :=
      [("subject", .int 3), ("body", .text "Hi"), ("template_id", .text "t1"),
       ("personalizationTokens", .list [.text "name", .int 7]), ("threadWithPrevious", .text "off"),
       ("theme", .text "dark")]
    let c : Config := .sendEmail
      { body := "Hi", templateId := some "t1", threadWithPrevious := false, extra := [("theme", .text "dark")] }
    NodeKind.sendEmail ≠ .condition ∧ Fields.SpelledOnce (keys .sendEmail) row
      ∧ salvage .sendEmail (.exit {}) (.object row) = c ∧ Mended .sendEmail row c := by
  intro row c
  have once : Fields.SpelledOnce (keys .sendEmail) row := by decide
  have salvaged : salvage .sendEmail (.exit {}) (.object row) = c := rfl
  exact ⟨by decide, once, salvaged, salvaged ▸ mended_salvage (by decide) once (.exit {})⟩

end Config

end Journey
