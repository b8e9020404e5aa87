import Journey.Condition.Outcome
import Journey.Node.Catalogue
import Journey.Proofs.Condition.Legible

/-!
# Journey.Proofs.Condition.Picked -- branches, labels and picks agree

Where the handles of clauses are canonical, those of the branches are different (`nodup_handles`).  So a handle
has one branch, and its label is that of the handle alone: a canonical handle has a known form, and the label by
position is never needed (`label_of_mem_branches`).  What is picked is one of the branches, whichever clause leads
to it (`pickFrom_cases`), so it cannot be labelled otherwise than the branch that has its handle.

All stored values that can be read stand for clauses with canonical handles, so all this holds of any of them, also
where the else-if handles are not in the order of the clauses.  Main statement: `picked_normalize`.
-/

namespace Journey

set_option autoImplicit false

namespace Handle

theorem label_elseIf {n : Nat} (low : 1 ≤ n) (position : Nat) :
    label (elseIf n) position = elseIfLabel n := by
  rw [label, if_neg (elseIf_ne_ifBranch n), if_neg (elseIf_ne_elseBranch n), elseIf?_elseIf low]

/-- A canonical handle has the same label wherever its clause stands. -/
theorem Canonical.label_eq {handles : List String} (h : Canonical handles) {handle : String}
    (mem : handle ∈ handles) (i j : Nat) : label handle i = label handle j := by
  rcases h.known mem with rfl | ⟨n, low, rfl⟩
  · rfl
  · rw [label_elseIf low, label_elseIf low]

theorem Canonical.ne_empty {handles : List String} (h : Canonical handles) {handle : String}
    (mem : handle ∈ handles) : handle ≠ "" := by
  rcases h.known mem with rfl | ⟨n, -, rfl⟩
  · decide
  · exact elseIf_ne_of_head? (by decide) n

end Handle

namespace Condition

variable {clauses : List Clause} {b : Branch}

/-! ## Branches -/

theorem pick_mem (clauses : List Clause) (contact : Contact) :
    pick clauses contact ∈ branches clauses :=
  pickFrom_mem 0 contact clauses

section Canonical

variable (handles : Handle.Canonical (clauses.map (·.id)))
include handles

theorem nodup_handles : ((branches clauses).map (·.handle)).Nodup := by
  rw [map_handle_branches, ← List.concat_eq_append]
  exact handles.nodup.concat handles.elseBranch_not_mem

/-- A branch has the label of its handle, whatever position is given. -/
theorem label_of_mem_branches (mem : b ∈ branches clauses) (position : Nat) :
    Handle.label b.handle position = b.label := by
  rcases mem_branches mem with ⟨c, there, i, rfl⟩ | rfl
  · exact handles.label_eq (List.mem_map_of_mem there) position i
  · rfl

theorem handle_ne_empty (mem : b ∈ branches clauses) : b.handle ≠ "" := by
  rcases mem_branches mem with ⟨c, there, i, rfl⟩ | rfl
  · exact handles.ne_empty (List.mem_map_of_mem there)
  · exact (by decide : Handle.elseBranch ≠ "")

/-- A handle has one branch. -/
theorem eq_of_handle_eq {x : Branch} (memX : x ∈ branches clauses) (memB : b ∈ branches clauses)
    (same : x.handle = b.handle) : x = b :=
  List.inj_on_of_nodup_map (nodup_handles handles) memX memB same

theorem labelAt?_of_mem (mem : b ∈ branches clauses) : labelAt? clauses b.handle = some b.label := by
  have there : ((branches clauses).find? fun x => x.handle == b.handle).isSome :=
    List.find?_isSome.2 ⟨b, mem, beq_self_eq_true b.handle⟩
  obtain ⟨x, found⟩ := Option.isSome_iff_exists.1 there
  have same : x.handle = b.handle := by simpa using List.find?_some found
  rw [labelAt?, found, eq_of_handle_eq handles (List.mem_of_find?_eq_some found) mem same]
  rfl

end Canonical

/-! ## Edges -/

/-- The label of an edge that leaves a block on a handle, by the settings as they are stored. -/
def edgeLabel? (d : Document) (handle : Option String) : Option String :=
  handle.bind fun h => if h.isEmpty then none else labelAt? (canonical d) h

/-- Settings that have been read give edges the labels they give as they are stored. -/
theorem edgeLabel?_config (c : ConditionConfig) (handle : Option String) :
    (Config.condition c).edgeLabel? handle
      = edgeLabel? (.object (c.row Key.written .kept)) handle := by
  cases handle <;> rfl

theorem edgeLabel?_of_mem {d : Document} (mem : b ∈ branches (canonical d)) :
    edgeLabel? d (some b.handle) = some b.label := by
  have named : b.handle.isEmpty = false := by
    simpa using handle_ne_empty (canonical_canonical d) mem
  rw [edgeLabel?, Option.bind_some, named, if_neg Bool.false_ne_true,
    labelAt?_of_mem (canonical_canonical d) mem]

/-! ## Picks -/

/-- A clause is the first that holds of a contact, and stands at a position. -/
structure IsFirst (clauses : List Clause) (contact : Contact) (position : Nat) (c : Clause) : Prop where
  found : clauses[position]? = some c
  held : holds c contact = true
  first : ∀ before ∈ clauses.take position, holds before contact = false

/-- The branch of the first clause that holds is picked, and the last branch only if there is none. -/
theorem pickFrom_cases (start : Nat) (contact : Contact) (cs : List Clause) :
    (∃ i c, IsFirst cs contact i c ∧ pickFrom start contact cs = .ofClause (start + i) c)
      ∨ (∀ c ∈ cs, holds c contact = false) ∧ pickFrom start contact cs = .fallThrough := by
  induction cs generalizing start with
  | nil => exact .inr ⟨List.forall_mem_nil _, rfl⟩
  | cons c cs ih =>
    rw [pickFrom]
    split
    · next held => exact .inl ⟨0, c, ⟨rfl, held, List.forall_mem_nil _⟩, rfl⟩
    · next fails =>
      rw [Bool.not_eq_true] at fails
      rcases ih (start + 1) with ⟨i, d, isFirst, picked⟩ | ⟨fail, picked⟩
      · refine .inl ⟨i + 1, d, ⟨isFirst.found, isFirst.held, ?_⟩, ?_⟩
        · exact List.forall_mem_cons.2 ⟨fails, isFirst.first⟩
        · rw [picked, Nat.add_assoc, Nat.add_comm 1 i]
      · exact .inr ⟨List.forall_mem_cons.2 ⟨fails, fail⟩, picked⟩

theorem tryBranches_eq_ok_iff {d : Document} {bs : List Branch} :
    tryBranches d = .ok bs ↔ Legible d ∧ branches (canonical d) = bs := by
  rw [tryBranches, normalize, Conversion.map_after, Conversion.after_eq_ok_iff, Legible]

/-- A branch is picked if the clauses are legible and what they ask for can be shown. -/
theorem tryPick_eq_ok_iff {d : Document} {contact : Contact} :
    tryPick d contact = .ok b ↔
      (Legible d ∧ Conversion.Succeed (pickLookUps contact (canonical d))) ∧ pick (canonical d) contact = b := by
  simp only [tryPick, bind_eq_ok_iff, normalize_eq_ok_iff, Conversion.after_eq_ok_iff, and_assoc,
    exists_eq_left', exists_and_left]

/-- The branch is that of the first clause that holds, or the last one if there is none. -/
def TakesFirst (clauses : List Clause) (contact : Contact) (b : Branch) : Prop :=
  (∃ i c, IsFirst clauses contact i c ∧ b.handle = c.id ∧ b.position = some i ∧ b.matched = true)
    ∨ (∀ c ∈ clauses, holds c contact = false)
      ∧ b.handle = Handle.elseBranch ∧ b.position = none ∧ b.matched = false

theorem takesFirst_pick (clauses : List Clause) (contact : Contact) :
    TakesFirst clauses contact (pick clauses contact) := by
  rcases pickFrom_cases 0 contact clauses with ⟨i, c, isFirst, taken⟩ | ⟨fails, taken⟩
  · have taken : pick clauses contact = .ofClause i c := by rwa [Nat.zero_add] at taken
    exact .inl ⟨i, c, isFirst, taken ▸ ⟨rfl, rfl, rfl⟩⟩
  · have taken : pick clauses contact = .fallThrough := taken
    exact .inr ⟨fails, taken ▸ ⟨rfl, rfl, rfl⟩⟩

/-- A stored value has branches exactly if it is legible, and a contact takes one of them exactly if what its
clauses ask for can be shown as well: that of the first clause that holds, the last one without a match if there
is none, and its handle is accepted.  The handles are those of the clauses, then `else`, all of them different.
A branch has one label: in the list, by its handle, on the edges that leave on it, also of settings that have been
read, by the form of its handle alone, and where it is picked. -/
theorem picked_normalize (d : Document) :
    ((∃ bs, tryBranches d = .ok bs) ↔ Legible d)
      ∧ (∀ contact, (∃ b, tryPick d contact = .ok b)
          ↔ Legible d ∧ Conversion.Succeed (pickLookUps contact (canonical d)))
      ∧ ∀ cs, normalize d = .ok cs →
          (∀ contact b, tryPick d contact = .ok b →
              TakesFirst cs contact b ∧ accepts cs b.handle = true)
            ∧ ∀ bs, tryBranches d = .ok bs →
                bs.map (·.handle) = cs.map (·.id) ++ [Handle.elseBranch]
                  ∧ (bs.map (·.handle)).Nodup
                  ∧ ∀ b ∈ bs,
                      labelAt? cs b.handle = some b.label
                        ∧ edgeLabel? d (some b.handle) = some b.label
                        ∧ (∀ c : ConditionConfig, c.canonical = cs →
                            (Config.condition c).edgeLabel? (some b.handle) = some b.label)
                        ∧ (∀ position, Handle.label b.handle position = b.label)
                        ∧ ∀ contact picked, tryPick d contact = .ok picked → picked.handle = b.handle →
                            picked.label = b.label := by
  simp only [normalize_eq_ok_iff, tryBranches_eq_ok_iff, tryPick_eq_ok_iff]
  refine ⟨⟨fun ⟨_, legible, _⟩ => legible, fun legible => ⟨_, legible, rfl⟩⟩,
    fun contact => ⟨fun ⟨_, shown, _⟩ => shown, fun shown => ⟨_, shown, rfl⟩⟩, ?_⟩
  rintro _ ⟨-, rfl⟩
  have handles : Handle.Canonical ((canonical d).map (·.id)) := canonical_canonical d
  refine ⟨?_, ?_⟩
  · rintro contact _ ⟨-, rfl⟩
    exact ⟨takesFirst_pick _ contact, accepts_pick _ contact⟩
  · rintro _ ⟨-, rfl⟩
    refine ⟨map_handle_branches _, nodup_handles handles, fun b mem => ⟨labelAt?_of_mem handles mem,
      edgeLabel?_of_mem mem, fun c same => ?_, label_of_mem_branches handles mem, ?_⟩⟩
    · have listed : b ∈ branches c.canonical := same ▸ mem
      rw [edgeLabel?_config]
      exact edgeLabel?_of_mem listed
    · rintro contact _ ⟨-, rfl⟩ onto
      rw [eq_of_handle_eq handles (pick_mem _ contact) mem onto]

/-- A list whose later clauses have the handles of each other's places. -/
def swapped : Document :=
  .object [("clauses", .list [.object [("id", .text "first")],
    .object [("id", .text "else_if_2"), ("rule", .text "email_clicked")],
    .object [("id", .text "else_if_1"), ("rule", .text "tag_exists"), ("value", .text "vip")]])]

/-- The last of the clauses leads to the branch with the number one. -/
theorem picked_normalize_swapped :
    let b : Branch := ⟨"else_if_1", "Else If 1", some 2⟩
    ∃ cs bs, normalize swapped = .ok cs ∧ tryBranches swapped = .ok bs ∧ b ∈ bs
      ∧ tryPick swapped { tags := ["VIP"] } = .ok b
      ∧ labelAt? cs b.handle = some b.label
      ∧ edgeLabel? swapped (some b.handle) = some b.label
      ∧ (Config.condition { clauses := cs }).edgeLabel? (some b.handle) = some b.label
      ∧ Handle.label b.handle 2 = b.label := by
  intro b
  have legible : Legible swapped := by decide +kernel
  have shown : Conversion.Succeed (pickLookUps { tags := ["VIP"] } (canonical swapped)) := by decide +kernel
  have taken : pick (canonical swapped) { tags := ["VIP"] } = b := by decide +kernel
  have read := normalize_eq_ok_iff.2 ⟨legible, rfl⟩
  have listed := tryBranches_eq_ok_iff.2 ⟨legible, rfl⟩
  have mem : b ∈ branches (canonical swapped) := taken ▸ pick_mem _ _
  obtain ⟨-, -, agree⟩ := picked_normalize swapped
  obtain ⟨-, -, labels⟩ := (agree _ read).2 _ listed
  obtain ⟨byHandle, onEdge, onRead, byForm, -⟩ := labels b mem
  exact ⟨_, _, read, listed, mem, tryPick_eq_ok_iff.2 ⟨⟨legible, shown⟩, taken⟩, byHandle, onEdge,
    onRead _ (ConditionConfig.canonical_canonical swapped), byForm 2⟩

/-- Where a clause asks for the least handle that cannot be read, there are no branches to list or to pick. -/
theorem not_picked_overlong :
    tryBranches (.object (ConditionConfig.overlong.row Key.written .kept))
        = .error (.read (Decimal.mostDigits + 1))
      ∧ tryPick (.object (ConditionConfig.overlong.row Key.written .kept)) {}
          = .error (.read (Decimal.mostDigits + 1)) := by
  have unread : normalize (.object (ConditionConfig.overlong.row Key.written .kept)) = _ :=
    ConditionConfig.normalize_overlong
  rw [tryBranches, tryPick, unread]
  exact ⟨rfl, rfl⟩

end Condition

end Journey
