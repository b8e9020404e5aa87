import Journey.Proofs.Editor.Nodes

/-!
# Journey.Proofs.Editor.Config -- edges that follow the clauses of a block

When the clauses of a condition block change, each edge that leaves the block moves to the handle that
its clause has among the new ones.  No two doors lead to one handle (`Condition.follow?_inj`): the
handles that old clauses get belong to different new clauses, and the last branch stays what it is,
which no clause owns.  So edges that were apart stay apart (`Sound.followClauses`, `Sound.followCanonical`),
and new settings keep a workflow settled (`Settled.followClauses`, `Settled.amend`).

That the old clauses have canonical handles matters here: what an edge leaves by is then the identifier
of a clause, or the last branch.
-/

namespace Journey

set_option autoImplicit false

namespace Condition

variable {old taken : List String} {clauses : List Clause} {patched : List Document}
  {door other handle : String}

/-- The handles that old clauses get are those of different new clauses. -/
theorem successors_sublist (position : Nat) (cs : List (Option String)) :
    ((successors old taken position cs clauses).map (·.2)).Sublist (clauses.map (·.id)) := by
  induction cs generalizing taken position clauses with
  | nil =>
    rw [successors]
    · exact List.nil_sublist _
    · intro _ _ _ _ impossible
      cases impossible
  | cons c cs ih =>
    cases clauses with
    | nil =>
      rw [successors]
      · exact List.nil_sublist _
      · intro _ _ _ _ _ impossible
        cases impossible
    | cons clause clauses =>
      rw [successors]
      split
      · exact (ih (position + 1)).cons_cons _
      · exact (ih (position + 1)).cons _

theorem mem_of_newHandle? (found : newHandle? old patched clauses door = some handle) :
    handle ∈ clauses.map (·.id) := by
  have mem := mem_of_lookup found
  exact (successors_sublist 0 _).subset (List.mem_map_of_mem (f := Prod.snd) mem)

/-- Different old clauses get different handles. -/
theorem newHandle?_inj (distinct : (clauses.map (·.id)).Nodup)
    (first : newHandle? old patched clauses door = some handle)
    (second : newHandle? old patched clauses other = some handle) : door = other :=
  lookup_inj (distinct.sublist (successors_sublist 0 _)) first second

theorem follow?_eq_some_iff :
    follow? old patched clauses door = some handle ↔
      newHandle? old patched clauses door = some handle
        ∨ newHandle? old patched clauses door = none ∧ door ∉ old ∧ accepts clauses door = true
          ∧ door = handle := by
  unfold follow?
  cases newHandle? old patched clauses door with
  | some _ => simp
  | none => simp [and_assoc]

/-- Edges move to handles of the block. -/
theorem accepts_of_follow? (found : follow? old patched clauses door = some handle) :
    accepts clauses handle = true := by
  rcases follow?_eq_some_iff.1 found with new | ⟨-, -, accepted, rfl⟩
  · exact accepts_iff.2 (.inl (mem_of_newHandle? new))
  · exact accepted

/-- No two doors lead to one handle. -/
theorem follow?_inj (canonical : Handle.Canonical (clauses.map (·.id)))
    (known : door ∈ old ∨ door = Handle.elseBranch) (known' : other ∈ old ∨ other = Handle.elseBranch)
    (first : follow? old patched clauses door = some handle)
    (second : follow? old patched clauses other = some handle) : door = other := by
  have last {d : String} (k : d ∈ old ∨ d = Handle.elseBranch) (gone : d ∉ old) :
      d = Handle.elseBranch := k.resolve_left gone
  rcases follow?_eq_some_iff.1 first with new | ⟨-, gone, -, same⟩
  · rcases follow?_eq_some_iff.1 second with new' | ⟨-, gone', -, same'⟩
    · exact newHandle?_inj canonical.nodup new new'
    · -- the last branch is no clause's
      have mem := mem_of_newHandle? new
      rw [← same', last known' gone'] at mem
      exact absurd mem canonical.elseBranch_not_mem
  · rcases follow?_eq_some_iff.1 second with new' | ⟨-, -, -, same'⟩
    · have mem := mem_of_newHandle? new'
      rw [← same, last known gone] at mem
      exact absurd mem canonical.elseBranch_not_mem
    · exact same.trans same'.symm

end Condition

/-- Settings of other kinds offer doors by their kind alone. -/
theorem Config.Offers.of_kind {c d : Config} {door : String} (offers : c.Offers door)
    (kind : d.kind = c.kind) (other : c.kind ≠ .condition) : d.Offers door := by
  cases c with
  | condition c => exact absurd rfl other
  | split _ =>
    cases d with
    | split _ => exact offers
    | _ => cases kind
  | _ =>
    cases d with
    | condition _ => cases kind
    | split _ => cases kind
    | _ => trivial

namespace Edge

@[simp] theorem door_onBranch (e : Edge) (handle : String) (config : Config) :
    (e.onBranch handle config).door = handle := by
  unfold onBranch
  by_cases same : e.sourceHandle = some handle
  · simp [same, door]
  · simp [same, door]

@[simp] theorem id_onBranch (e : Edge) (handle : String) (config : Config) :
    (e.onBranch handle config).id = e.id := by
  unfold onBranch
  split <;> rfl

@[simp] theorem source_onBranch (e : Edge) (handle : String) (config : Config) :
    (e.onBranch handle config).source = e.source := by
  unfold onBranch
  split <;> rfl

@[simp] theorem target_onBranch (e : Edge) (handle : String) (config : Config) :
    (e.onBranch handle config).target = e.target := by
  unfold onBranch
  split <;> rfl

/-- An edge stands where another one stood, at a door that follows the old one if it leaves the block. -/
structure Follows (block : String) (follow? : String → Option String) (e f : Edge) : Prop where
  id : f.id = e.id
  source : f.source = e.source
  target : f.target = e.target
  elsewhere : e.source ≠ block → f.door = e.door
  here : e.source = block → follow? e.door = some f.door

end Edge

namespace Workflow

variable {edges : List Edge} {id : String} {config : Config} {follow? : String → Option String}
  {at? look? : String → Option Config} {w : Workflow}

/-- The edge after the clauses of a node have changed. -/
theorem follows_of_mem {e f : Edge}
    (followed : (if e.source == id then (follow? e.door).map fun h => e.onBranch h config else some e)
      = some f) : e.Follows id follow? f := by
  by_cases leaves : e.source = id
  · simp only [leaves, BEq.rfl, if_true, Option.map_eq_some_iff] at followed
    obtain ⟨handle, found, rfl⟩ := followed
    refine ⟨by simp, by simp, by simp, fun other => absurd leaves other, fun _ => ?_⟩
    rw [found, Edge.door_onBranch]
  · simp only [beq_iff_eq, leaves, if_false, Option.some.injEq] at followed
    subst followed
    exact ⟨rfl, rfl, rfl, fun _ => rfl, fun here => absurd here leaves⟩

theorem mem_followClauses {f : Edge} (mem : f ∈ Editor.followClauses edges id config follow?) :
    ∃ e ∈ edges, e.Follows id follow? f := by
  obtain ⟨e, memE, followed⟩ := List.mem_filterMap.1 mem
  exact ⟨e, memE, follows_of_mem followed⟩

/-- Edges keep their identifiers and their order. -/
theorem map_id_followClauses_sublist :
    ((Editor.followClauses edges id config follow?).map (·.id)).Sublist (edges.map (·.id)) := by
  rw [Editor.followClauses]
  induction edges with
  | nil => exact List.nil_sublist _
  | cons e edges ih =>
    rw [List.filterMap_cons]
    split
    · exact ih.cons _
    · next f followed =>
      rw [List.map_cons, List.map_cons, (follows_of_mem followed).id]
      exact ih.cons_cons _

/-- One condition block has other clauses, and all else is as before. -/
structure Reclaused (at? look? : String → Option Config) (block : String) (c : ConditionConfig)
    (config : Config) : Prop where
  before : at? block = some (.condition c)
  after : look? block = some config
  kind : config.kind = .condition
  elsewhere : ∀ id, id ≠ block → look? id = at? id

section Reclaused

variable {block : String} {c : ConditionConfig} {e f e' f' : Edge}

/-- The block stays a condition, and every other one is as it was. -/
theorem Reclaused.kind_eq (h : Reclaused at? look? block c config) {a : String} {s : Config}
    (found : at? a = some s) : ∃ s', look? a = some s' ∧ s'.kind = s.kind := by
  by_cases here : a = block
  · rw [here, h.before, Option.some.injEq] at found
    rw [here]
    exact ⟨config, h.after, by rw [h.kind, ← found]; rfl⟩
  · exact ⟨s, (h.elsewhere a here).trans found, rfl⟩

theorem Reclaused.fits (h : Reclaused at? look? block c config) (fits : e.Fits at?)
    (follows : e.Follows block follow? f)
    (offered : ∀ door handle, follow? door = some handle → config.Offers handle) : f.Fits look? := by
  obtain ⟨s, t, source, target, noExit, noTrigger, noLoop, door⟩ := fits
  obtain ⟨t', target', kindT⟩ := h.kind_eq target
  rw [← follows.target] at target'
  rw [← follows.source, ← follows.target] at noLoop
  by_cases leaves : e.source = block
  · refine ⟨config, t', ?_, target', ?_, kindT ▸ noTrigger, noLoop, ?_⟩
    · rw [follows.source, leaves, h.after]
    · rw [h.kind]
      decide
    · exact offered _ _ (follows.here leaves)
  · refine ⟨s, t', ?_, target', noExit, kindT ▸ noTrigger, noLoop, ?_⟩
    · rw [follows.source, h.elsewhere _ leaves, source]
    · rw [follows.elsewhere leaves]
      exact door

/-- Edges that are at one door now were at one door before, if their doors do not lead to one. -/
theorem door_eq_of_follows (followsE : e.Follows block follow? e') (followsF : f.Follows block follow? f')
    (apart : e.source = block → f.source = block → ∀ handle, follow? e.door = some handle →
      follow? f.door = some handle → e.door = f.door)
    (sources : e.source = f.source) (doors : e'.door = f'.door) : e.door = f.door := by
  by_cases leaves : e.source = block
  · have leaves' : f.source = block := sources ▸ leaves
    have there := followsF.here leaves'
    rw [← doors] at there
    exact apart leaves leaves' e'.door (followsE.here leaves) there
  · rw [← followsE.elsewhere leaves, ← followsF.elsewhere (sources ▸ leaves), doors]

theorem Reclaused.apart (h : Reclaused at? look? block c config) (away : e.Apart at? f)
    (followsE : e.Follows block follow? e') (followsF : f.Follows block follow? f')
    (back : e.source = f.source → e'.door = f'.door → e.door = f.door) : e'.Apart look? f' := by
  have sources (same : e'.source = f'.source) : e.source = f.source := by
    rwa [followsE.source, followsF.source] at same
  have targets (same : e'.target = f'.target) : e.target = f.target := by
    rwa [followsE.target, followsF.target] at same
  refine ⟨⟨fun source target door => ?_, fun source door s found => ?_⟩, fun target t found => ?_⟩
  · exact away.connections (sources source) (targets target) (back (sources source) door)
  · have together := back (sources source) door
    rw [followsE.source] at found
    by_cases leaves : e.source = block
    · have shared := away.doors (sources source) together _ (leaves ▸ h.before)
      simp [branches, Config.kind] at shared
    · exact away.doors (sources source) together s (h.elsewhere _ leaves ▸ found)
  · rw [followsE.target] at found
    by_cases enters : e.target = block
    · have entered := away.inputs (targets target) _ (enters ▸ h.before)
      simp [Config.kind] at entered
    · exact away.inputs (targets target) t (h.elsewhere _ enters ▸ found)

/-- Edges that follow the clauses of a condition block stay sound, if no two of their doors lead to one. -/
theorem Sound.followClauses (h : Sound at? edges) (reclaused : Reclaused at? look? block c config)
    (offered : ∀ door handle, follow? door = some handle → config.Offers handle)
    (apart : ∀ e ∈ edges, ∀ f ∈ edges, e.source = block → f.source = block → ∀ handle,
      follow? e.door = some handle → follow? f.door = some handle → e.door = f.door) :
    Sound look? (Editor.followClauses edges block config follow?) where
  fits := by
    intro f mem
    obtain ⟨e, memE, follows⟩ := mem_followClauses mem
    exact reclaused.fits (h.fits e memE) follows offered
  apart := by
    rw [Editor.followClauses, List.pairwise_filterMap]
    refine h.apart.imp_of_mem fun {e f} memE memF away e' followedE f' followedF => ?_
    have followsE := follows_of_mem followedE
    have followsF := follows_of_mem followedF
    exact reclaused.apart away followsE followsF
      (door_eq_of_follows followsE followsF (apart e memE f memF))
  acyclic := by
    refine h.acyclic.along fun f mem => ?_
    obtain ⟨e, memE, follows⟩ := mem_followClauses mem
    exact ⟨e, memE, follows.source.symm, follows.target.symm⟩

/-- Sound edges leave a block by doors that it has. -/
theorem Sound.offers (h : Sound at? edges) (here : at? block = some config) (mem : e ∈ edges)
    (leaves : e.source = block) : config.Offers e.door := by
  obtain ⟨s, _, source, -, -, -, -, offers⟩ := h.fits e mem
  rw [leaves, here, Option.some.injEq] at source
  exact source ▸ offers

/-- The edges of a block with canonical handles stay sound when they follow its clauses. -/
theorem Sound.followCanonical (h : Sound at? edges) (here : at? block = some (.condition c))
    (canonical : c.Canonical) (patched : List Document) {d : Document}
    (after : look? block = some (.condition { clauses := Condition.canonical d }))
    (elsewhere : ∀ id, id ≠ block → look? id = at? id) :
    let config : Config := .condition { clauses := Condition.canonical d }
    Sound look? (Editor.followClauses edges block config
      (Condition.follow? (c.clauses.map (·.id)) patched config.clauses)) := by
  intro config
  have new : ConditionConfig.Canonical { clauses := Condition.canonical d } :=
    ConditionConfig.canonical_of_document d
  have ids : config.clauses.map (·.id) = (Condition.canonical d).map (·.id) := new.map_id_canonical
  have handles : Handle.Canonical (config.clauses.map (·.id)) := ids ▸ new.handles
  refine h.followClauses ⟨here, after, rfl, elsewhere⟩ (fun door handle followed => ?_) ?_
  · exact Condition.accepts_of_follow? followed
  · intro e memE f memF leavesE leavesF handle first second
    have known := canonical.offers_iff.1 (h.offers here memE leavesE)
    have known' := canonical.offers_iff.1 (h.offers here memF leavesF)
    exact Condition.follow?_inj handles known known' first second

end Reclaused

/-- The edges of a condition block with other clauses follow them. -/
theorem Settled.followClauses {ids : IdSource} (h : w.Settled ids) {n : Node}
    (found : w.node? n.id = some n) {c : ConditionConfig} (before : n.config = .condition c)
    (patched : List Document) (d : Document) :
    let config : Config := .condition { clauses := Condition.canonical d }
    let follow? := Condition.follow? (c.clauses.map (·.id)) patched config.clauses
    Settled ids { w.updateNode n.id (fun n => { n with config }) with
      edges := Editor.followClauses w.edges n.id config follow? } := by
  intro config follow?
  have here : settings? w.nodes n.id = some (.condition c) :=
    before ▸ h.wellFormed.settings?_of_node? found
  have canonical : c.Canonical := by
    have all := h.wellFormed.canonical n (List.mem_of_find?_eq_some found)
    rw [before] at all
    exact all
  have new : config.Canonical := ConditionConfig.canonical_of_document d
  refine h.without ?_ (fun id mem => ?_) fun id mem => map_id_followClauses_sublist.subset mem
  · refine h.wellFormed.reconfigure found ?_ new (h.wellFormed.edgeIds.sublist map_id_followClauses_sublist)
      fun look? after elsewhere => ?_
    · rw [Node.kind, before]
      rfl
    · exact h.wellFormed.sound.followCanonical here canonical patched after elsewhere
  · have same : (w.updateNode n.id fun n => { n with config }).nodeIds = w.nodeIds :=
      nodeIds_updateNode fun _ => rfl
    exact same ▸ mem

/-- Settings of another kind leave the edges as they are. -/
theorem Settled.amend {ids : IdSource} (h : w.Settled ids) {n : Node}
    (found : w.node? n.id = some n) (other : n.kind ≠ .condition) {config : Config}
    (kind : config.kind = n.kind) :
    (w.updateNode n.id fun n => { n with config }).Settled ids := by
  have here := h.wellFormed.settings?_of_node? found
  have same : (w.updateNode n.id fun n => { n with config }).nodeIds = w.nodeIds :=
    nodeIds_updateNode fun _ => rfl
  refine h.without ?_ (fun id mem => same ▸ mem) fun _ mem => mem
  refine h.wellFormed.reconfigure found kind (Config.canonical_of_kind (kind ▸ other))
    h.wellFormed.edgeIds fun look? after elsewhere => ?_
  refine h.wellFormed.sound.reconfigure (fun id => ?_) fun e memE s t before found offers => ?_
  · by_cases block : id = n.id
    · rw [block, after, here, Option.map_some, Option.map_some, kind]
      rfl
    · rw [elsewhere id block]
  · by_cases block : e.source = n.id
    · rw [block, here, Option.some.injEq] at before
      rw [block, after, Option.some.injEq] at found
      subst before found
      exact offers.of_kind kind other
    · rw [elsewhere _ block, before, Option.some.injEq] at found
      exact found ▸ offers

end Workflow

/-- New settings of a block keep an editor settled. -/
theorem Editor.Settled.patchConfig {ids : IdSource} {e f : Editor} {n : Node} {id : String}
    (h : e.Settled ids) {patch : Fields} (patched : e.patchConfig id patch = .ok (f, n)) :
    f.Settled ids := by
  obtain ⟨m, found, changed⟩ := patchConfig_eq_ok_iff.1 patched
  obtain rfl : m.id = id := by simpa using List.find?_some found
  rcases changed with ⟨c, config, -, done⟩ | ⟨other, config, amended, rfl, -⟩
  · cases done
    exact h.record (h.workflow.followClauses found config _ _) _
  · exact h.record (h.workflow.amend found other (Config.kind_of_amend amended)) _

end Journey
