import Journey.Proofs.Condition.Legible
import Journey.Proofs.Editor.Config

/-!
# Journey.Proofs.Editor.Followed -- where the edges of a block go when its clauses change

The clauses of a condition block are patched with others, in another order, with some left out, some new and
some there twice.  What becomes of an edge is said here by positions in the two lists.

A clause of the patch that carries an old identifier is the old clause, and of several the first one
(`newHandle?_of_carried`).  An old clause that none carries is the one that stands where it stood, if that
carries no old identifier at all, and is gone otherwise (`newHandle?_of_not_carried`).  Both are read off the
walk along the patch, which hands out the old identifiers one by one: of a handle that some clause carries, no
other clause takes possession (`lookup_successors_of_mem`), and any other handle is asked for at one position
only, its old one (`lookup_successors_of_getElem?`).

Old handles that are canonical are distinct, so every door leads to one new handle at most
(`ConditionConfig.doorAfter?`).  Each edge stands on the handle of the new clause that its old one has become,
an edge of the last branch stays on it, and the edges of other blocks stay as they are (`Workflow.Followed`,
`followed_patchConfig`).
-/

namespace Journey

set_option autoImplicit false

/-! ## Patched clauses -/

namespace ConditionConfig

/-- The clauses that the settings have after a patch, with canonical handles. -/
def clausesAfter (c : ConditionConfig) (patch : Fields) : List Clause :=
  Condition.canonical (.object (c.patchedRow patch))

/-- The settings after a patch. -/
def patched (c : ConditionConfig) (patch : Fields) : Config :=
  .condition { clauses := c.clausesAfter patch }

/-- The door to which an edge moves with a patch, if its branch is not gone. -/
def doorAfter? (c : ConditionConfig) (patch : Fields) (door : String) : Option String :=
  Condition.follow? (c.clauses.map (·.id)) (c.patchedClauses patch) (c.patched patch).clauses door

variable {c : ConditionConfig} {patch : Fields}

/-- Every patched clause is read. -/
theorem length_clausesAfter (given : c.patchedClauses patch ≠ []) :
    (c.clausesAfter patch).length = (c.patchedClauses patch).length := by
  rw [clausesAfter, Condition.length_canonical, Condition.readClauses, Document.fields_object]
  unfold patchedClauses at given ⊢
  split
  · next void => exact absurd void given
  · next given => rw [given, List.length_cons, List.length_cons, List.length_map]

/-- The handles of the settings after a patch are those of their clauses. -/
theorem map_id_clauses_patched (c : ConditionConfig) (patch : Fields) :
    (c.patched patch).clauses.map (·.id) = (c.clausesAfter patch).map (·.id) :=
  (canonical_of_document _).map_id_canonical

theorem handles_patched (c : ConditionConfig) (patch : Fields) :
    Handle.Canonical ((c.patched patch).clauses.map (·.id)) := by
  rw [map_id_clauses_patched]
  exact Condition.canonical_canonical _

end ConditionConfig

namespace Condition

/-! ## The clause that takes over an old one -/

/-- Whether a clause that is written carries an identifier. -/
def carries (id : String) (d : Document) : Bool :=
  match Fields.getD d.fields "id" with
  | .text s => s == id
  | _ => false

variable {old taken : List String} {position i : Nat} {c : Option String} {cs : List (Option String)}
  {clause : Clause} {clauses : List Clause} {patched : List Document} {d : Document} {handle : String}

theorem carried_eq_some_iff : carried old d = some handle ↔ handle ∈ old ∧ carries handle d = true := by
  unfold carried carries
  cases Fields.getD d.fields "id" with
  | text s =>
    simp only [List.contains_eq_mem, decide_eq_true_eq, beq_iff_eq, Option.ite_none_right_eq_some,
      Option.some.injEq]
    exact ⟨fun ⟨known, same⟩ => ⟨same ▸ known, same⟩, fun ⟨known, same⟩ => ⟨same ▸ known, same⟩⟩
  | _ => simp

theorem carried_eq_none_iff : carried old d = none ↔ ∀ id ∈ old, carries id d = false := by
  simp [Option.eq_none_iff_forall_ne_some, carried_eq_some_iff]

theorem inherited_eq_some_iff :
    inherited old taken position c = some handle ↔
      c = some handle ∨ c = none ∧ old[position]? = some handle ∧ handle ∉ taken := by
  cases c with
  | some id => simp [inherited]
  | none => simp [inherited, Option.filter_eq_some_iff]

/-- A clause that takes over an old one gives it its handle. -/
theorem lookup_successors_of_eq (here : inherited old taken position c = some handle) :
    (successors old taken position (c :: cs) (clause :: clauses)).lookup handle = some clause.id := by
  simp [successors, here]

/-- A clause that takes over another one, or none, is passed by. -/
theorem lookup_successors_of_ne (other : inherited old taken position c ≠ some handle) :
    (successors old taken position (c :: cs) (clause :: clauses)).lookup handle
      = (successors old ((inherited old taken position c).toList ++ taken) (position + 1) cs
          clauses).lookup handle := by
  rw [successors]
  cases taker : inherited old taken position c with
  | none => rfl
  | some id =>
    have ne : (handle == id) = false := by
      rw [beq_eq_false_iff_ne]
      rintro rfl
      exact other taker
    simp [List.lookup_cons, ne]

/-- What some clause carries goes to the first that carries it. -/
theorem lookup_successors_of_mem (mem : handle ∈ taken) :
    (successors old taken position cs clauses).lookup handle
      = (cs.findIdx? (· == some handle)).bind fun i => clauses[i]?.map (·.id) := by
  induction cs generalizing taken position clauses with
  | nil => simp [successors]
  | cons c cs ih =>
    cases clauses with
    | nil => simp [successors]
    | cons clause clauses =>
      rw [List.findIdx?_cons]
      by_cases here : c = some handle
      · rw [lookup_successors_of_eq (inherited_eq_some_iff.2 (.inl here))]
        simp [here]
      · have other : inherited old taken position c ≠ some handle := by
          simp [inherited_eq_some_iff, here, mem]
        rw [lookup_successors_of_ne other, ih (List.mem_append_right _ mem),
          if_neg (by simpa using here), Option.bind_map]
        rfl

/-- What no clause carries, and no old clause from a position on has, goes to none. -/
theorem lookup_successors_eq_none (uncarried : some handle ∉ cs)
    (gone : ∀ i, position ≤ i → old[i]? ≠ some handle) :
    (successors old taken position cs clauses).lookup handle = none := by
  induction cs generalizing taken position clauses with
  | nil => simp [successors]
  | cons c cs ih =>
    cases clauses with
    | nil => simp [successors]
    | cons clause clauses =>
      rw [List.mem_cons, not_or] at uncarried
      have other : inherited old taken position c ≠ some handle := by
        simp [inherited_eq_some_iff, Ne.symm uncarried.1, gone position (Nat.le_refl _)]
      rw [lookup_successors_of_ne other]
      exact ih uncarried.2 fun i le => gone i (Nat.le_of_succ_le le)

/-- What no clause carries goes to the clause at its old position, if that carries nothing. -/
theorem lookup_successors_of_getElem? (distinct : old.Nodup) (uncarried : some handle ∉ cs)
    (free : handle ∉ taken) (stood : old[position + i]? = some handle) :
    (successors old taken position cs clauses).lookup handle
      = if cs[i]? = some none then clauses[i]?.map (·.id) else none := by
  induction cs generalizing taken position clauses i with
  | nil => simp [successors]
  | cons c cs ih =>
    cases clauses with
    | nil => simp [successors]
    | cons clause clauses =>
      rw [List.mem_cons, not_or] at uncarried
      have only {j : Nat} (there : old[j]? = some handle) : j = position + i :=
        (List.getElem?_inj (List.getElem?_eq_some_iff.1 there).1 distinct).1 (there.trans stood.symm)
      cases i with
      | zero =>
        cases c with
        | none =>
          exact lookup_successors_of_eq (inherited_eq_some_iff.2 (.inr ⟨rfl, stood, free⟩))
        | some id =>
          have other : inherited old taken position (some id) ≠ some handle := by
            simp [inherited_eq_some_iff, Ne.symm uncarried.1]
          have gone : ∀ j, position + 1 ≤ j → old[j]? ≠ some handle := by
            intro j le there
            have := only there
            omega
          rw [lookup_successors_of_ne other, lookup_successors_eq_none uncarried.2 gone]
          simp
      | succ i =>
        have other : inherited old taken position c ≠ some handle := by
          rw [ne_eq, inherited_eq_some_iff]
          rintro (same | ⟨-, there, -⟩)
          · exact uncarried.1 same.symm
          · have := only there
            omega
        rw [lookup_successors_of_ne other]
        refine ih uncarried.2 ?_ ?_
        · rw [List.mem_append, Option.mem_toList]
          exact fun mem => mem.elim other free
        · rw [← stood]
          congr 1
          omega

/-! ## New handles, by positions -/

theorem mem_carriers_iff (known : handle ∈ old) :
    some handle ∈ patched.map (carried old) ↔ ∃ d ∈ patched, carries handle d = true := by
  simp [carried_eq_some_iff, known]

/-- An old clause gets the handle of the first clause of the patch that carries its identifier. -/
theorem newHandle?_of_carried (known : handle ∈ old)
    (first : patched.findIdx? (carries handle) = some i) :
    newHandle? old patched clauses handle = clauses[i]?.map (·.id) := by
  have same : ((· == some handle) ∘ carried old) = carries handle := by
    funext d
    rw [Function.comp_apply, Bool.eq_iff_iff, beq_iff_eq, carried_eq_some_iff]
    exact and_iff_right known
  have mem : handle ∈ (patched.map (carried old)).filterMap id := by
    have carrier : patched.any (carries handle) = true := by
      rw [← List.findIdx?_isSome, first]
      rfl
    simpa using (mem_carriers_iff known).2 (List.any_eq_true.1 carrier)
  rw [newHandle?, lookup_successors_of_mem mem, List.findIdx?_map, same, first]
  rfl

/-- An old clause that no clause of the patch carries gets the handle of the one at its position, if that
carries none of the old identifiers. -/
theorem newHandle?_of_not_carried (distinct : old.Nodup) (stood : old[i]? = some handle)
    (uncarried : patched.findIdx? (carries handle) = none) :
    newHandle? old patched clauses handle
      = if (patched[i]?.any fun d => old.all fun id => !carries id d) then clauses[i]?.map (·.id)
        else none := by
  have known : handle ∈ old := List.mem_of_getElem? stood
  have absent : some handle ∉ patched.map (carried old) := by
    rw [mem_carriers_iff known]
    rintro ⟨d, mem, carried⟩
    have := List.findIdx?_eq_none_iff.1 uncarried d mem
    simp [carried] at this
  have free : handle ∉ (patched.map (carried old)).filterMap id := by simpa using absent
  rw [newHandle?, lookup_successors_of_getElem? distinct absent free (by rwa [Nat.zero_add]),
    List.getElem?_map]
  cases patched[i]? with
  | none => rfl
  | some d => simp [carried_eq_none_iff]

/-- What is no old identifier gets no new handle. -/
theorem newHandle?_eq_none (unknown : handle ∉ old) : newHandle? old patched clauses handle = none := by
  refine lookup_successors_eq_none ?_ fun i _ there => unknown (List.mem_of_getElem? there)
  simp [carried_eq_some_iff, unknown]

theorem follow?_of_mem (known : handle ∈ old) :
    follow? old patched clauses handle = newHandle? old patched clauses handle := by
  unfold follow?
  cases newHandle? old patched clauses handle with
  | some _ => rfl
  | none => simp [known]

theorem follow?_of_not_mem (unknown : handle ∉ old) (accepted : accepts clauses handle = true) :
    follow? old patched clauses handle = some handle :=
  follow?_eq_some_iff.2 (.inr ⟨newHandle?_eq_none unknown, unknown, accepted, rfl⟩)

end Condition

namespace ConditionConfig

variable {c : ConditionConfig} {patch : Fields} {door : String} {i : Nat}

/-- The handle of a clause after a patch, by its position. -/
theorem getElem?_clauses_patched (c : ConditionConfig) (patch : Fields) (i : Nat) :
    (c.patched patch).clauses[i]?.map (·.id) = ((c.clausesAfter patch).map (·.id))[i]? := by
  rw [← List.getElem?_map, map_id_clauses_patched]

theorem doorAfter?_of_carried (known : door ∈ c.clauses.map (·.id))
    (first : (c.patchedClauses patch).findIdx? (Condition.carries door) = some i) :
    c.doorAfter? patch door = ((c.clausesAfter patch).map (·.id))[i]? := by
  rw [doorAfter?, Condition.follow?_of_mem known, Condition.newHandle?_of_carried known first,
    getElem?_clauses_patched]

theorem doorAfter?_of_free (canonical : c.Canonical) (stood : (c.clauses.map (·.id))[i]? = some door)
    (uncarried : (c.patchedClauses patch).findIdx? (Condition.carries door) = none) {d : Document}
    (there : (c.patchedClauses patch)[i]? = some d)
    (free : ∀ id ∈ c.clauses.map (·.id), Condition.carries id d = false) :
    c.doorAfter? patch door = ((c.clausesAfter patch).map (·.id))[i]? := by
  rw [doorAfter?, Condition.follow?_of_mem (List.mem_of_getElem? stood),
    Condition.newHandle?_of_not_carried canonical.handles.nodup stood uncarried, there,
    getElem?_clauses_patched]
  exact if_pos (by simpa using free)

theorem doorAfter?_eq_none (canonical : c.Canonical) (stood : (c.clauses.map (·.id))[i]? = some door)
    (uncarried : (c.patchedClauses patch).findIdx? (Condition.carries door) = none)
    (taken : ∀ d, (c.patchedClauses patch)[i]? = some d →
      ∃ id ∈ c.clauses.map (·.id), Condition.carries id d = true) :
    c.doorAfter? patch door = none := by
  rw [doorAfter?, Condition.follow?_of_mem (List.mem_of_getElem? stood),
    Condition.newHandle?_of_not_carried canonical.handles.nodup stood uncarried]
  refine if_neg fun free => ?_
  obtain ⟨d, there, carriesNone⟩ := (Option.any_eq_true _ _).1 free
  obtain ⟨id, known, carried⟩ := taken d there
  have := List.all_eq_true.1 carriesNone id known
  simp [carried] at this

theorem doorAfter?_elseBranch (canonical : c.Canonical) (patch : Fields) :
    c.doorAfter? patch Handle.elseBranch = some Handle.elseBranch :=
  Condition.follow?_of_not_mem canonical.handles.elseBranch_not_mem (Condition.accepts_iff.2 (.inr rfl))

end ConditionConfig

/-! ## Edges that follow -/

namespace Edge

/-- Among edges there is one in the place of another one, with its identifier and its ends, on a handle. -/
def StandsOn (e : Edge) (handle : String) (edges : List Edge) : Prop :=
  ∃ f ∈ edges, f.id = e.id ∧ f.source = e.source ∧ f.target = e.target ∧ f.sourceHandle = some handle

@[simp] theorem sourceHandle_onBranch (e : Edge) (handle : String) (config : Config) :
    (e.onBranch handle config).sourceHandle = some handle := by
  unfold onBranch
  split
  · next same => exact same
  · rfl

end Edge

namespace Workflow

/-- The edges of a block have followed its clauses, from the old handles to the new ones. -/
structure Followed (block : String) (old : List String) (patched : List Document) (new : List String)
    (edges edges' : List Edge) : Prop where
  doors : ∀ e ∈ edges, e.source = block → e.door ∈ old ∨ e.door = Handle.elseBranch
  /-- Where clauses carry the handle of an edge, it stands on the new handle of the first of them. -/
  carried : ∀ e ∈ edges, e.source = block → e.door ∈ old → ∀ i : Nat,
    patched.findIdx? (Condition.carries e.door) = some i →
      ∃ handle, new[i]? = some handle ∧ e.StandsOn handle edges'
  last : ∀ e ∈ edges, e.source = block → e.door = Handle.elseBranch →
    e.StandsOn Handle.elseBranch edges'
  /-- Where none does, the edge stands on the handle of the clause at the old position, if that carries no
  old handle. -/
  inherited : ∀ e ∈ edges, e.source = block → ∀ i : Nat, old[i]? = some e.door →
    patched.findIdx? (Condition.carries e.door) = none →
      ∀ d, patched[i]? = some d → (∀ id ∈ old, Condition.carries id d = false) →
        ∃ handle, new[i]? = some handle ∧ e.StandsOn handle edges'
  /-- If that carries one, or the list is too short, the edge is gone. -/
  dropped : ∀ e ∈ edges, e.source = block → ∀ i : Nat, old[i]? = some e.door →
    patched.findIdx? (Condition.carries e.door) = none →
      (∀ d, patched[i]? = some d → ∃ id ∈ old, Condition.carries id d = true) →
        e.id ∉ edges'.map (·.id)
  apart : edges'.Pairwise fun e f => e.source = block → f.source = block → e.door ≠ f.door
  elsewhere : edges'.filter (·.source != block) = edges.filter (·.source != block)
  order : (edges'.map (·.id)).Sublist (edges.map (·.id))

variable {edges : List Edge} {e : Edge} {block handle : String} {config : Config}
  {follow? : String → Option String} {at? : String → Option Config}

/-- An edge whose door leads somewhere stands there. -/
theorem standsOn_followClauses (mem : e ∈ edges) (leaves : e.source = block)
    (found : follow? e.door = some handle) :
    e.StandsOn handle (Editor.followClauses edges block config follow?) := by
  refine ⟨e.onBranch handle config, List.mem_filterMap.2 ⟨e, mem, ?_⟩, by simp, by simp, by simp, by simp⟩
  simp [leaves, found]

/-- An edge whose door leads nowhere is gone, where identifiers tell edges apart. -/
theorem id_not_mem_followClauses (distinct : (edges.map (·.id)).Nodup) (mem : e ∈ edges)
    (leaves : e.source = block) (gone : follow? e.door = none) :
    e.id ∉ (Editor.followClauses edges block config follow?).map (·.id) := by
  intro there
  obtain ⟨f, memF, same⟩ := List.mem_map.1 there
  obtain ⟨g, memG, follows⟩ := mem_followClauses memF
  obtain rfl : g = e := List.inj_on_of_nodup_map distinct memG mem (follows.id.symm.trans same)
  rw [follows.here leaves] at gone
  cases gone

/-- The edges of other blocks stay as they are. -/
theorem filter_followClauses :
    (Editor.followClauses edges block config follow?).filter (·.source != block)
      = edges.filter (·.source != block) := by
  induction edges with
  | nil => rfl
  | cons e edges ih =>
    rw [Editor.followClauses, List.filterMap_cons, ← Editor.followClauses]
    by_cases leaves : e.source = block
    · rw [List.filter_cons_of_neg (by simp [leaves]), ← ih]
      cases found : follow? e.door with
      | none => simp [leaves]
      | some handle => simp [leaves]
    · simp [leaves, ih]

/-- On sound edges, no two share a door of a condition block. -/
theorem Sound.doors_apart (sound : Sound at? edges) (here : at? block = some config)
    (kind : config.kind = .condition) :
    edges.Pairwise fun e f => e.source = block → f.source = block → e.door ≠ f.door := by
  refine sound.apart.imp fun {e f} apart source source' same => ?_
  have shared := apart.doors (source.trans source'.symm) same config (source ▸ here)
  simp [branches, kind] at shared

/-- On sound edges, those of a condition block with canonical handles follow its clauses. -/
theorem followed_followClauses {c : ConditionConfig} {patch : Fields} (sound : Sound at? edges)
    (edgeIds : (edges.map (·.id)).Nodup) (here : at? block = some (.condition c))
    (canonical : c.Canonical) (given : c.patchedClauses patch ≠ []) :
    Followed block (c.clauses.map (·.id)) (c.patchedClauses patch) ((c.clausesAfter patch).map (·.id))
      edges (Editor.followClauses edges block (c.patched patch) (c.doorAfter? patch)) := by
  -- every patched clause has a handle
  have handled {i : Nat} (lt : i < (c.patchedClauses patch).length) :
      ∃ handle, ((c.clausesAfter patch).map (·.id))[i]? = some handle := by
    rw [← ConditionConfig.length_clausesAfter given] at lt
    exact ⟨_, List.getElem?_eq_getElem (by rwa [List.length_map])⟩
  refine ⟨?_, ?_, ?_, ?_, ?_, ?_, filter_followClauses, map_id_followClauses_sublist⟩
  · intro e mem leaves
    exact canonical.offers_iff.1 (sound.offers here mem leaves)
  · intro e mem leaves known i first
    obtain ⟨handle, new⟩ := handled (List.findIdx?_eq_some_iff_getElem.1 first).1
    have goes := ConditionConfig.doorAfter?_of_carried known first
    exact ⟨handle, new, standsOn_followClauses mem leaves (goes.trans new)⟩
  · intro e mem leaves last
    have stays := ConditionConfig.doorAfter?_elseBranch canonical patch
    exact standsOn_followClauses mem leaves (last ▸ stays)
  · intro e mem leaves i stood uncarried d there free
    obtain ⟨handle, new⟩ := handled (List.getElem?_eq_some_iff.1 there).1
    have goes := ConditionConfig.doorAfter?_of_free canonical stood uncarried there free
    exact ⟨handle, new, standsOn_followClauses mem leaves (goes.trans new)⟩
  · intro e mem leaves i stood uncarried taken
    have gone := ConditionConfig.doorAfter?_eq_none canonical stood uncarried taken
    exact id_not_mem_followClauses edgeIds mem leaves gone
  · have elsewhere (id : String) (other : id ≠ block) :
        (if id = block then some (c.patched patch) else at? id) = at? id := if_neg other
    have after := sound.followCanonical here canonical (c.patchedClauses patch) (if_pos rfl) elsewhere
    exact after.doors_apart (if_pos rfl) rfl

end Workflow

/-- A condition block has new settings after a patch exactly if it takes it. -/
theorem Editor.patchConfig_of_condition {e f : Editor} {n m : Node} {c : ConditionConfig} {patch : Fields}
    (found : e.workflow.node? n.id = some n) (config : n.config = .condition c) :
    e.patchConfig n.id patch = .ok (f, m) ↔
      c.Takes patch ∧ (e.patchCondition n c patch).1 = f ∧ { n with config := c.patched patch } = m := by
  rw [patchConfig_eq_ok_iff]
  constructor
  · rintro ⟨n', found', ⟨c', config', takes, done⟩ | ⟨other, -⟩⟩
    · obtain rfl := Option.some.inj (found.symm.trans found')
      cases config.symm.trans config'
      exact ⟨takes, Prod.ext_iff.1 done⟩
    · obtain rfl := Option.some.inj (found.symm.trans found')
      exact absurd (congrArg Config.kind config) other
  · rintro ⟨takes, rfl, rfl⟩
    exact ⟨n, found, .inl ⟨c, config, takes, rfl⟩⟩

theorem Editor.exists_patchConfig_iff {e : Editor} {n : Node} {c : ConditionConfig} {patch : Fields}
    (found : e.workflow.node? n.id = some n) (config : n.config = .condition c) :
    (∃ f m, e.patchConfig n.id patch = .ok (f, m)) ↔ c.Takes patch := by
  simp [patchConfig_of_condition found config]

/-- On a workflow in shape, a patch is accepted for a condition block with canonical handles exactly if its
clauses can be read and none has a list or an object for an identifier, and if it leaves the block a clause, the
edges follow the clauses then. -/
theorem Editor.followed_patchConfig (e : Editor) {n : Node} {c : ConditionConfig}
    (nodeIds : e.workflow.nodeIds.Nodup) (edgeIds : e.workflow.edgeIds.Nodup)
    (sound : Workflow.Sound (Workflow.settings? e.workflow.nodes) e.workflow.edges)
    (mem : n ∈ e.workflow.nodes) (config : n.config = .condition c) (canonical : c.Canonical)
    (patch : Fields) (given : c.patchedClauses patch ≠ []) :
    ((∃ f m, e.patchConfig n.id patch = .ok (f, m)) ↔ c.Takes patch)
      ∧ ∀ f m, e.patchConfig n.id patch = .ok (f, m) →
          m = { n with config := c.patched patch } ∧ f.workflow.node? n.id = some m
            ∧ Workflow.Followed n.id (c.clauses.map (·.id)) (c.patchedClauses patch)
                ((c.clausesAfter patch).map (·.id)) e.workflow.edges f.workflow.edges := by
  have found := Workflow.node?_of_mem nodeIds mem
  have here : Workflow.settings? e.workflow.nodes n.id = some (.condition c) :=
    (Workflow.settings?_eq_some_iff nodeIds).2 ⟨n, mem, rfl, config⟩
  refine ⟨exists_patchConfig_iff found config, fun f m patched => ?_⟩
  obtain ⟨-, rfl, rfl⟩ := (patchConfig_of_condition found config).1 patched
  refine ⟨rfl, ?_, ?_⟩
  · have updated : (e.workflow.updateNode n.id fun n => { n with config := c.patched patch }).node? n.id
        = (e.workflow.node? n.id).map fun n => { n with config := c.patched patch } :=
      Workflow.node?_updateNode fun _ => rfl
    rw [found] at updated
    exact updated
  · exact Workflow.followed_followClauses sound edgeIds here canonical given

/-- An edge that leaves the block `s` on a handle. -/
def Edge.branch (id handle : String) : Edge :=
  { id, source := "s", target := "x", sourceHandle := some handle }

/-- The settings of a block with three clauses. -/
def ConditionConfig.threefold : ConditionConfig :=
  { clauses := [{ id := "if" }, { id := "else_if_1" }, { id := "else_if_2" }] }

/-- A condition block on each of whose four branches an edge leaves. -/
def Workflow.fourWays : Workflow :=
  { id := "w"
    nodes := [{ id := "t", config := .trigger {} }, { id := "s", config := .condition .threefold },
      { id := "x", config := .exit {} }]
    edges := [{ id := "e", source := "t", target := "s" }, .branch "a" "if", .branch "b" "else_if_1",
      .branch "c" "else_if_2", .branch "d" "else"] }

theorem ConditionConfig.canonical_threefold : threefold.Canonical where
  regular := ⟨rfl, by simp [threefold, Clause.Regular]⟩
  handles := ⟨["else_if_1", "else_if_2"], rfl, by decide +kernel⟩

/-- The last of three clauses first and last, and a new one between. -/
def shuffle : Fields :=
  [("clauses", .list [.object [("id", .text "else_if_2")], .object [], .object [("id", .text "else_if_2")]])]

/-- The edge of the first clause is gone, that of the second one stays, and that of the last one is the first. -/
theorem Editor.followed_patchConfig_shuffle :
    ∃ f m, (ofWorkflow .fourWays).patchConfig "s" shuffle = .ok (f, m)
      ∧ "a" ∉ f.workflow.edgeIds
      ∧ (Edge.branch "b" "else_if_1").StandsOn "else_if_1" f.workflow.edges
      ∧ (Edge.branch "c" "else_if_2").StandsOn "if" f.workflow.edges
      ∧ (Edge.branch "d" "else").StandsOn "else" f.workflow.edges := by
  have valid : Workflow.fourWays.problems = [] := by decide +kernel
  obtain ⟨-, nodeIds, sound⟩ := (Workflow.problems_eq_nil_iff _).1 valid
  have edgeIds : Workflow.fourWays.edgeIds.Nodup := by decide
  have new : (ConditionConfig.threefold.clausesAfter shuffle).map (·.id) = ["if", "else_if_1", "else_if_2"] := by
    decide +kernel
  obtain ⟨accepts, follows⟩ :=
    followed_patchConfig (ofWorkflow .fourWays) nodeIds edgeIds sound
      (n := { id := "s", config := .condition .threefold }) (List.mem_cons_of_mem _ List.mem_cons_self) rfl
      ConditionConfig.canonical_threefold shuffle (by decide +kernel)
  have takes : ConditionConfig.threefold.Takes shuffle := by decide +kernel
  obtain ⟨f, m, patched⟩ := accepts.2 takes
  obtain ⟨-, -, followed⟩ := follows f m patched
  rw [new] at followed
  have memA : Edge.branch "a" "if" ∈ Workflow.fourWays.edges := by simp [Workflow.fourWays]
  have memB : Edge.branch "b" "else_if_1" ∈ Workflow.fourWays.edges := by simp [Workflow.fourWays]
  have memC : Edge.branch "c" "else_if_2" ∈ Workflow.fourWays.edges := by simp [Workflow.fourWays]
  have memD : Edge.branch "d" "else" ∈ Workflow.fourWays.edges := by simp [Workflow.fourWays]
  refine ⟨f, m, patched, ?_, ?_, ?_, ?_⟩
  · refine followed.dropped _ memA rfl 0 rfl (by decide +kernel) fun d first => ?_
    cases first
    exact ⟨"else_if_2", by decide +kernel⟩
  · obtain ⟨handle, granted, stands⟩ :=
      followed.inherited _ memB rfl 1 rfl (by decide +kernel) _ rfl (by decide +kernel)
    cases granted
    exact stands
  · obtain ⟨handle, granted, stands⟩ := followed.carried _ memC rfl (by decide +kernel) 0 (by decide +kernel)
    cases granted
    exact stands
  · exact followed.last _ memD rfl rfl

/-- The first of three clauses, and one under a handle that cannot be read. -/
def lengthen : Fields :=
  [("clauses", .list [.object [("id", .text "if")], .object [("id", .text Handle.overlong)]])]

/-- The clauses of such a patch carry texts, and it is refused. -/
theorem Editor.not_followed_lengthen :
    ConditionConfig.threefold.patchedClauses lengthen
        = [.object [("id", .text "if")], .object [("id", .text Handle.overlong)]]
      ∧ ¬ ∃ f m, (ofWorkflow .fourWays).patchConfig "s" lengthen = .ok (f, m) := by
  have listed : ConditionConfig.threefold.patchedClauses lengthen
      = [.object [("id", .text "if")], .object [("id", .text Handle.overlong)]] := rfl
  refine ⟨listed, ?_⟩
  rintro ⟨f, m, patched⟩
  obtain ⟨reads, -⟩ :=
    ((patchConfig_of_condition (n := { id := "s", config := .condition .threefold }) rfl rfl).1 patched).1
  obtain ⟨-, short, -⟩ := Condition.legible_iff.1 reads
  have asked : (Condition.readClauses (.object (ConditionConfig.threefold.patchedRow lengthen))).tail.map (·.id)
      = [Text.trim Handle.overlong] := rfl
  rw [Handle.trim_overlong] at asked
  obtain ⟨c, mem, same⟩ := List.mem_map.1 (asked ▸ List.mem_singleton_self Handle.overlong)
  exact Handle.not_short_overlong (same ▸ short c mem)

end Journey
