import Journey.Proofs.Config.Reloaded

/-!
# Journey.Proofs.Config.Decoded -- settings that are written and checked again

What passes a check and is written passes the check again, and is the same, if nothing gets lost or
changes its place on the way.  A row is firm if its members have keys of their own and hold something
(`Fields.Firm`).  What is read from a firm row lasts (`Fields.Lasts`): no foreign member takes the place of
a field that is left out, and all of them are written as they are.

Main statements: settings that last are read from what is written for them, with the open length of a
pause written out (`Config.decode_lasts`), and those that were read from a firm row with firm clauses last
(`Config.lasts_of_decode`).
-/

namespace Journey

set_option autoImplicit false

/-! ## Rows that are firm -/

namespace Fields

/-- Every member has a key of its own, as in any object that is stored, and holds something. -/
structure Firm (row : Fields) : Prop where
  solid : row.Solid
  distinct : (keys row).Nodup

instance (row : Fields) : Decidable row.Firm :=
  decidable_of_iff (row.Solid ∧ (keys row).Nodup)
    ⟨fun both => ⟨both.1, both.2⟩, fun firm => ⟨firm.solid, firm.distinct⟩⟩

variable {row others : Fields}

theorem firm_nil : Firm [] := by decide

theorem Firm.filter (h : row.Firm) (p : String × Document → Bool) : Firm (row.filter p) where
  solid m mem := h.solid m (List.mem_of_mem_filter mem)
  distinct := (List.filter_sublist.map _).nodup h.distinct

theorem Firm.kept_eq (h : others.Firm) : kept others = others := by
  have distinct : (keys ([] ++ others)).Nodup := h.distinct
  have whole : overlay [] others = others := overlay_of_nodup distinct
  rw [kept, whole]
  exact List.filter_eq_self.2 fun m mem => by simp [h.solid m mem]

/-- The foreign members stand apart from the declared ones, and are firm. -/
structure Lasts (ds : List (Key × Document)) (others : Fields) : Prop extends Apart ds others where
  firm : others.Firm

variable {ds : List (Key × Document)}

/-- What no field takes of a firm row lasts, if the fields that hold nothing have no member. -/
theorem lasts_unclaimed (ds : List (Key × Document)) (proper : Key.Proper (ds.map (·.1)))
    (unshadowed : ∀ m ∈ ds, m.2.isNull = true → get? row m.1.other = none) (firm : row.Firm) :
    Lasts ds (Key.unclaimed (ds.map (·.1)) row) :=
  ⟨apart_unclaimed proper unshadowed, firm.filter _⟩

theorem lasts_nil (proper : Key.Proper (ds.map (·.1))) : Lasts ds [] :=
  ⟨⟨proper, fun _ _ => rfl, fun _ _ _ => rfl⟩, firm_nil⟩

/-- What no field takes is the foreign members. -/
theorem Lasts.unclaimed_eq (h : Lasts ds others) :
    Key.unclaimed (ds.map (·.1)) (Nulls.dropped.members (overlay (declared ds) others)) = others :=
  h.unclaimed.trans h.firm.kept_eq

end Fields

/-! ## Fields that hold objects -/

namespace Checked

variable {α : Type} {check : Document → Checked α} {inner : Fields → Checked α} {default a : α}
  {row others : Fields} {key : Key} {d : Document} {ds : List (Key × Document)}

theorem of_orNull {a : Option α} (h : orNull check d = .valid a) :
    a = none ∨ ∃ b, a = some b ∧ check d = .valid b := by
  cases d with
  | null =>
    cases h
    exact .inl rfl
  | _ =>
    obtain ⟨b, checked, rfl⟩ := map_eq_valid_iff.1 h
    exact .inr ⟨b, rfl, checked⟩

theorem reads_object (h : inner row = .valid a) : Reads (object inner) default (.object row) a := h

/-- Where the members are apart, a required field is read as it was written. -/
theorem required_of_apart (h : Fields.Apart ds others) (mem : (key, d) ∈ ds) (held : d.isNull = false)
    (checked : check d = .valid a) :
    required (Nulls.dropped.members (Fields.overlay (Fields.declared ds) others)) key check
      = .valid a := by
  rw [required, h.find? mem, if_neg (by simp [held])]
  exact under_eq_valid_iff.2 checked

end Checked

/-! ## Clauses -/

namespace Clause

/-- The declared fields with what is written for them. -/
def members (c : Clause) : List (Key × Document) :=
  keys.zip [.text c.id, .text c.rule.name, .text c.propertyKey, .text c.comparator.name, .text c.value]

theorem proper_keys : Key.Proper keys := by decide

theorem decode_lasts {c : Clause} (h : Fields.Lasts c.members c.extra) :
    Checked.object decode (Nulls.dropped.object (c.row Key.written)) = .valid c := by
  have unclaimed : Key.unclaimed keys _ = _ := h.unclaimed_eq
  show decode (Nulls.dropped.members (Fields.overlay (Fields.declared c.members) c.extra)) = _
  have field {α : Type} {key : Key} {check : Document → Checked α} {default a : α} {d : Document}
      (position : Nat) (there : c.members[position]? = some (key, d))
      (reads : Checked.Reads check default d a) := Checked.field_of_apart h.toApart
        (List.mem_of_getElem? there) reads
  rw [decode, unclaimed, field 0 rfl (Checked.reads_text c.id),
    field 1 rfl (Checked.reads_choice (Rule.named?_name c.rule)),
    field 2 rfl (Checked.reads_text c.propertyKey),
    field 3 rfl (Checked.reads_choice (Comparator.named?_name c.comparator)),
    field 4 rfl (Checked.reads_text c.value)]
  rfl

/-- No field of a clause is left out, so that one that was read from a firm row lasts. -/
theorem lasts_of_decode {row : Fields} {c : Clause} (firm : row.Firm) (h : decode row = .valid c) :
    Fields.Lasts c.members c.extra := by
  rw [extra_of_decode h]
  refine Fields.lasts_unclaimed c.members proper_keys ?_ firm
  simp [members, keys]

end Clause

/-! ## Settings -/

namespace Config

/-- The settings with an open length written out. -/
def stated : Config → Config
  | .wait c => .wait { c with duration := some c.length }
  | c => c

@[simp] theorem kind_stated (c : Config) : c.stated.kind = c.kind := by cases c <;> rfl

theorem document_stated (nulls : Nulls) (c : Config) : c.stated.document nulls = c.document nulls := by
  cases c <;> rfl

/-- The foreign members last, and so do those of the clauses. -/
structure Lasts (c : Config) : Prop where
  members : Fields.Lasts c.members c.extra
  clauses : ∀ cond, c = .condition cond → ∀ clause ∈ cond.clauses,
    Fields.Lasts clause.members clause.extra

theorem lasts_of_extra_eq_nil {c : Config} (plain : c.extra = [])
    (clauses : ∀ cond, c = .condition cond → ∀ clause ∈ cond.clauses,
      Fields.Lasts clause.members clause.extra) : c.Lasts := by
  have proper := proper_keys c.kind
  rw [← map_fst_members] at proper
  exact ⟨plain ▸ Fields.lasts_nil proper, clauses⟩

theorem lasts_empty (kind : NodeKind) : (empty kind).Lasts := by
  refine lasts_of_extra_eq_nil (by cases kind <;> rfl) fun cond is clause mem => ?_
  cases kind with
  | condition =>
    cases is
    rw [List.mem_singleton] at mem
    rw [mem]
    exact Fields.lasts_nil Clause.proper_keys
  | _ => cases is

/-- Settings are read from what is written for them. -/
theorem decode_lasts {c : Config} (h : c.Lasts) :
    Checked.object (decode c.kind) (c.document .dropped) = .valid c.stated := by
  rw [document_eq]
  by_cases condition : c.kind = .condition
  · cases c with
    | condition c =>
      have each : ∀ clause ∈ c.clauses,
          Checked.object Clause.decode (Nulls.dropped.object (clause.row Key.written)) = .valid clause :=
        fun clause mem => Clause.decode_lasts (h.clauses c rfl clause mem)
      have unclaimed : Key.unclaimed ConditionConfig.keys _ = _ := h.members.unclaimed_eq
      show Config.condition <$> ConditionConfig.decode _ = _
      rw [ConditionConfig.decode, unclaimed, Checked.field_of_apart h.members.toApart
        (List.mem_of_getElem? (i := 0) rfl) (Checked.reads_list id each), List.map_id]
      rfl
    | _ => cases condition
  · have same : c.reloaded = c.stated := by
      have kept := h.members.firm.kept_eq
      cases c with
      | condition c => exact absurd rfl condition
      | _ =>
        simp only [extra] at kept
        simp only [reloaded, stated, kept]
    exact same ▸ decode_stored h.members.toApart condition

/-- Settings that were read from a firm row, those of a condition with firm clauses, last. -/
theorem lasts_of_decode {kind : NodeKind} {row : Fields} {c : Config} (firm : row.Firm)
    (clauses : kind = .condition → ∀ d ∈ (Fields.getD row "clauses").items, d.fields.Firm)
    (h : decode kind row = .valid c) : c.Lasts := by
  have extra := extra_of_decode h
  by_cases condition : kind = .condition
  · subst condition
    obtain ⟨c, decoded, rfl⟩ := Checked.map_eq_valid_iff.1 h
    refine ⟨?_, fun cond is clause mem => ?_⟩
    · rw [extra]
      refine Fields.lasts_unclaimed (Config.condition c).members (proper_keys .condition) ?_ firm
      simp [members, stored, Config.kind, keys, ConditionConfig.keys]
    · cases is
      rcases Checked.of_word (ConditionConfig.decode_eq_valid_iff.1 decoded).1 with default | checked
      · rw [default, List.mem_singleton] at mem
        rw [mem]
        exact Fields.lasts_nil Clause.proper_keys
      · obtain ⟨item, there, read⟩ := Checked.of_list checked clause mem
        exact Clause.lasts_of_decode (clauses rfl item there) (Checked.of_object read)
  · refine ⟨⟨apart_of_decode firm.solid condition h, extra ▸ firm.filter _⟩, fun cond is => ?_⟩
    rw [← kind_of_decode h, is] at condition
    exact absurd rfl condition

end Config

end Journey
