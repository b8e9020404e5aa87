import Journey.Proofs.Graph.Rules
import Journey.Workflow.Change

/-!
# Journey.Proofs.Graph.Agreement -- the list of breaches and the check of a connection agree

Two parts of the library know the rules: `Workflow.problems` reads a whole workflow, and
`Connection.check` looks at one edge that is asked for.  Both are compared with `Sound`.  A workflow
has no breach exactly when it has one trigger, distinct identifiers, and sound edges
(`problems_eq_nil_iff`); a connection is granted exactly when its edge fits, stands apart from the
others and closes no loop (`check_eq_ok_iff`).  So on a valid workflow a connection is granted exactly
when the workflow with its edge is valid again.
-/

namespace Journey

set_option autoImplicit false

theorem length_eraseDups_le (l : List String) : l.eraseDups.length ≤ l.length := by
  cases l with
  | nil => simp
  | cons a l =>
    have fewer := List.length_filter_le (fun b => !b == a) l
    have := length_eraseDups_le (l.filter fun b => !b == a)
    rw [List.eraseDups_cons, List.length_cons, List.length_cons]
    omega
termination_by l.length
decreasing_by
  simp only [List.length_cons]
  omega

/-- Dropping repetitions shortens exactly the lists that have some. -/
theorem length_eraseDups_eq_iff {l : List String} : l.eraseDups.length = l.length ↔ l.Nodup := by
  induction l with
  | nil => simp
  | cons a l ih =>
    have fewer := List.length_filter_le (fun b => !b == a) l
    have shorter := length_eraseDups_le (l.filter fun b => !b == a)
    rw [List.eraseDups_cons, List.length_cons, List.length_cons, List.nodup_cons]
    constructor
    · intro same
      have all : (l.filter fun b => !b == a) = l :=
        List.filter_eq_self.2 (List.length_filter_eq_length_iff.1 (by omega))
      rw [all] at same
      refine ⟨fun mem => ?_, ih.1 (by omega)⟩
      have := List.filter_eq_self.1 all a mem
      simp at this
    · rintro ⟨new, distinct⟩
      have all : (l.filter fun b => !b == a) = l := by
        rw [List.filter_eq_self]
        intro b mem
        have : b ≠ a := fun eq => new (eq ▸ mem)
        simpa using this
      rw [all, ih.2 distinct]

namespace Workflow

variable {nodes : List Node} {edges : List Edge}

/-! ## The list of breaches -/

theorem offers_iff (n : Node) (door : String) :
    n.config.Offers door ↔
      (n.isA .condition = true → Condition.accepts n.config.clauses door = true)
        ∧ (n.isA .split = true → door ∈ splitHandles) := by
  cases h : n.config <;> simp [Config.Offers, Node.isA, Node.kind, h, Config.kind, Config.clauses]

theorem sameConnection_iff {e f : Edge} :
    sameConnection e f = true ↔ f.source = e.source ∧ f.target = e.target ∧ f.door = e.door := by
  simp only [sameConnection, Bool.and_eq_true, beq_iff_eq, and_assoc]
  rw [eq_comm, @eq_comm _ e.target, @eq_comm _ e.door]

theorem sameDoor_iff {e f : Edge} :
    sameDoor e f = true ↔ f.source = e.source ∧ f.door = e.door := by
  simp only [sameDoor, Bool.and_eq_true, beq_iff_eq]
  rw [eq_comm, @eq_comm _ e.door]

/-- An edge between two nodes has no breach exactly when it fits and leaves apart from those before
it. -/
theorem edgeProblems_eq_nil_iff {source target : Node} {earlier : List Edge} {e : Edge}
    (atSource : indexed? nodes e.source = some source)
    (atTarget : indexed? nodes e.target = some target) :
    edgeProblems source target earlier e = [] ↔
      e.Fits (settings? nodes) ∧ ∀ f ∈ earlier, f.LeaveApart (settings? nodes) e := by
  have found : settings? nodes e.source = some source.config := by simp [settings?, atSource]
  have found' : settings? nodes e.target = some target.config := by simp [settings?, atTarget]
  simp only [Edge.fits_iff found found', Edge.leaveApart_iff found, offers_iff]
  simp only [edgeProblems, List.append_eq_nil_iff, ite_eq_right_iff, reduceCtorEq, imp_false,
    List.any_eq_true, sameConnection_iff, sameDoor_iff, Bool.and_eq_true, Node.isA, Node.kind,
    beq_iff_eq, Bool.not_eq_true', List.contains_eq_mem, decide_eq_false_iff_not, not_and, not_exists,
    Decidable.not_not, Bool.not_eq_false]
  constructor
  · rintro ⟨⟨⟨⟨⟨⟨new, noExit⟩, noTrigger⟩, noLoop⟩, branch⟩, variant⟩, free⟩
    refine ⟨⟨noExit, noTrigger, noLoop, branch, variant⟩, fun f mem => ⟨new f mem, ?_⟩⟩
    intro sameSource sameDoor
    by_contra branching
    exact free (by simpa using branching) f mem sameSource sameDoor
  · rintro ⟨⟨noExit, noTrigger, noLoop, branch, variant⟩, apart⟩
    refine ⟨⟨⟨⟨⟨⟨fun f mem => (apart f mem).1, noExit⟩, noTrigger⟩, noLoop⟩, branch⟩, variant⟩, ?_⟩
    intro branching f mem sameSource sameDoor
    rw [(apart f mem).2 sameSource sameDoor] at branching
    cases branching

theorem danglingProblems_ne_nil {source target : Option Node} {e : Edge}
    (missing : source = none ∨ target = none) : danglingProblems source target e ≠ [] := by
  rcases missing with rfl | rfl <;> simp [danglingProblems]

theorem not_fits_of_missing {e : Edge}
    (missing : indexed? nodes e.source = none ∨ indexed? nodes e.target = none) :
    ¬ e.Fits (settings? nodes) := by
  rintro ⟨s, t, source, target, -⟩
  rcases missing with absent | absent
  · simp [settings?, absent] at source
  · simp [settings?, absent] at target

/-- Edges have no breach exactly when all fit and every two of them leave apart. -/
theorem edgesProblems_eq_nil_iff (earlier es : List Edge) :
    edgesProblems nodes earlier es = [] ↔
      (∀ e ∈ es, e.Fits (settings? nodes))
        ∧ (∀ f ∈ earlier, ∀ e ∈ es, f.LeaveApart (settings? nodes) e)
        ∧ es.Pairwise (Edge.LeaveApart (settings? nodes)) := by
  induction es generalizing earlier with
  | nil => simp [edgesProblems]
  | cons e es ih =>
    rw [edgesProblems]
    split
    · next source target atSource atTarget =>
      rw [List.append_eq_nil_iff, edgeProblems_eq_nil_iff atSource atTarget, ih,
        List.pairwise_cons]
      constructor
      · rintro ⟨⟨fits, apart⟩, allFit, across, pairwise⟩
        refine ⟨?_, fun f mem g memG => ?_, fun g memG => across e (by simp) g memG, pairwise⟩
        · exact List.forall_mem_cons.2 ⟨fits, allFit⟩
        · rcases List.mem_cons.1 memG with rfl | later
          · exact apart f mem
          · exact across f (List.mem_append_left _ mem) g later
      · rintro ⟨fits, across, first, pairwise⟩
        obtain ⟨fit, allFit⟩ := List.forall_mem_cons.1 fits
        refine ⟨⟨fit, fun f mem => across f mem e (by simp)⟩, allFit, fun f mem g memG => ?_, pairwise⟩
        rcases List.mem_append.1 mem with old | new
        · exact across f old g (by simp [memG])
        · rw [List.mem_singleton.1 new]
          exact first g memG
    · next notBoth =>
      have missing : indexed? nodes e.source = none ∨ indexed? nodes e.target = none := by
        cases h : indexed? nodes e.source with
        | none => exact .inl rfl
        | some source =>
          cases k : indexed? nodes e.target with
          | none => exact .inr rfl
          | some target => exact absurd k (notBoth source target h)
      rw [List.append_eq_nil_iff]
      constructor
      · rintro ⟨silent, -⟩
        exact absurd silent (danglingProblems_ne_nil missing)
      · rintro ⟨fits, -⟩
        exact absurd (fits e (by simp)) (not_fits_of_missing missing)

theorem attached_eq_self (fits : ∀ e ∈ edges, e.Fits (settings? nodes)) :
    attached nodes edges = edges := by
  refine List.filter_eq_self.2 fun e mem => ?_
  have source := (fits e mem).source_isSome
  have target := (fits e mem).target_isSome
  rw [settings?, Option.isSome_map] at source target
  rw [source, target]
  rfl

/-- No member of a kind is repeated exactly when no two equal members are of the kind. -/
theorem count_le_one_iff {l : List String} {p : String → Bool} :
    (∀ a ∈ l, p a = true → l.count a ≤ 1) ↔ l.Pairwise fun a b => a = b → p a = false := by
  have filtered : (l.filter p).Nodup ↔ l.Pairwise fun a b => a = b → p a = false := by
    rw [List.Nodup, List.pairwise_filter]
    refine List.Pairwise.iff fun a b => ?_
    constructor
    · rintro apart rfl
      by_contra h
      have kind : p a = true := by simpa using h
      exact apart kind kind rfl
    · rintro apart kind - rfl
      rw [apart rfl] at kind
      cases kind
  rw [← filtered, List.nodup_iff_count]
  constructor
  · intro once a
    by_cases mem : a ∈ l.filter p
    · obtain ⟨memL, kind⟩ := List.mem_filter.1 mem
      rw [List.count_filter kind]
      exact once a memL kind
    · rw [List.count_eq_zero_of_not_mem mem]
      omega
  · intro once a _ kind
    have := once a
    rwa [List.count_filter kind] at this

/-- Whether the node with an identifier may be entered only once. -/
def takesOneInput (nodes : List Node) (id : String) : Bool :=
  (indexed? nodes id).any fun n => !n.isA .exit

theorem takesOneInput_eq_false_iff {id : String} :
    takesOneInput nodes id = false ↔ ∀ c, settings? nodes id = some c → c.kind = .exit := by
  cases h : indexed? nodes id <;> simp [takesOneInput, settings?, h, Node.isA, Node.kind]

theorem inputProblems_eq_nil_iff {targets : List String} {id : String} :
    inputProblems nodes targets id = [] ↔ (takesOneInput nodes id = true → targets.count id ≤ 1) := by
  unfold inputProblems takesOneInput
  split
  · next n found =>
    cases exit : n.isA .exit <;> simp [found, exit]
  · next absent => simp [absent]

theorem nodeProblems_eq_nil_iff (w : Workflow) :
    w.nodeProblems = [] ↔ w.nodes.countP (·.isA .trigger) = 1 ∧ w.nodeIds.Nodup := by
  rw [nodeProblems, List.append_eq_nil_iff, ← length_eraseDups_eq_iff, ite_eq_left_iff]
  refine and_congr ?_ (by simp)
  split
  · next noTrigger => simp [noTrigger]
  · next one => simp [one]
  · next several notOne => simpa using notOne

/-- A workflow has no breach exactly when it has one trigger, distinct identifiers, and sound
edges. -/
theorem problems_eq_nil_iff (w : Workflow) :
    w.problems = [] ↔
      w.nodes.countP (·.isA .trigger) = 1 ∧ w.nodeIds.Nodup
        ∧ Sound (settings? w.nodes) w.edges := by
  have inputs (edges : List Edge) :
      (edges.map (·.target)).eraseDups.flatMap (inputProblems w.nodes (edges.map (·.target))) = [] ↔
        edges.Pairwise fun e f => e.target = f.target →
          ∀ c, settings? w.nodes e.target = some c → c.kind = .exit := by
    simp only [List.flatMap_eq_nil_iff, List.mem_eraseDups, inputProblems_eq_nil_iff,
      count_le_one_iff, List.pairwise_map, takesOneInput_eq_false_iff]
  have loop : (if w.hasCycle then [Problem.loop] else []) = [] ↔ Paths.Acyclic w.edges := by
    rw [← Paths.hasCycle_eq_false_iff, hasCycle_eq]
    cases Paths.hasCycle w.edges <;> simp
  simp only [problems, List.append_eq_nil_iff, nodeProblems_eq_nil_iff, edgesProblems_eq_nil_iff, loop]
  constructor
  · rintro ⟨⟨⟨⟨one, distinct⟩, fits, -, leave⟩, enter⟩, acyclic⟩
    rw [attached_eq_self fits, inputs] at enter
    refine ⟨one, distinct, fits, ?_, acyclic⟩
    exact (leave.and enter).imp fun both => ⟨both.1, both.2⟩
  · rintro ⟨one, distinct, fits, apart, acyclic⟩
    refine ⟨⟨⟨⟨one, distinct⟩, fits, by simp, ?_⟩, ?_⟩, acyclic⟩
    · exact apart.imp fun h => h.toLeaveApart
    · rw [attached_eq_self fits, inputs]
      exact apart.imp fun h => h.inputs

end Workflow

/-! ## The check of a connection -/

namespace Connection

variable {nodes : List Node} {edges : List Edge}

theorem ite_some_eq_none_iff {p : Prop} [Decidable p] {r : Rejection} {other : Option Rejection} :
    (if p then some r else other) = none ↔ ¬ p ∧ other = none := by
  split <;> simp_all

theorem branchRejection?_eq_none_iff {source : Node} {id door : String} :
    branchRejection? edges source id door = none ↔
      source.config.Offers door
        ∧ ∀ f ∈ edges, f.source = id → f.door = door → Workflow.branches source.kind = false := by
  have free : inUse edges id door = false ↔ ∀ f ∈ edges, f.source = id → f.door ≠ door := by
    simp [inUse]
  unfold branchRejection?
  cases h : source.config with
  | condition c =>
    simp [ite_some_eq_none_iff, Config.Offers, free, Workflow.branches, Node.kind, h, Config.kind]
  | split c =>
    simp only [ite_some_eq_none_iff]
    simp [Config.Offers, free, Workflow.branches, Node.kind, h, Config.kind]
  | _ => simp [Config.Offers, Workflow.branches, Node.kind, h, Config.kind]

/-- A connection between two nodes is not refused exactly when its edge fits, stands apart from the
others and closes no loop. -/
theorem rejection?_eq_none_iff {source target : Node} {e : Edge}
    (atSource : Workflow.indexed? nodes e.source = some source)
    (atTarget : Workflow.indexed? nodes e.target = some target) :
    rejection? edges source target e.source e.target e.door = none ↔
      e.Fits (Workflow.settings? nodes) ∧ (∀ f ∈ edges, f.Apart (Workflow.settings? nodes) e)
        ∧ ¬ Paths.Leads edges e.target e.source := by
  have found : Workflow.settings? nodes e.source = some source.config := by
    simp [Workflow.settings?, atSource]
  have found' : Workflow.settings? nodes e.target = some target.config := by
    simp [Workflow.settings?, atTarget]
  have branch := @branchRejection?_eq_none_iff edges source e.source e.door
  rw [rejection?]
  simp only [ite_some_eq_none_iff]
  simp only [Paths.createsCycle, Paths.hasPath_iff, Edge.fits_iff found found', Node.isA, beq_iff_eq]
  simp only [List.any_eq_true, Bool.and_eq_true, beq_iff_eq, not_exists, not_and]
  constructor
  · rintro ⟨noExit, noTrigger, noLoop, new, noReturn, last⟩
    cases refused : branchRejection? edges source e.source e.door with
    | some r => simp [refused] at last
    | none =>
      obtain ⟨offers, free⟩ := branch.1 refused
      simp only [refused, ite_some_eq_none_iff, not_exists, not_and, and_true] at last
      refine ⟨⟨noExit, noTrigger, noLoop, offers⟩, fun f mem => ⟨?_, ?_⟩, noReturn⟩
      · refine (Edge.leaveApart_iff found).2 ⟨fun same => ?_, free f mem⟩
        exact new f mem ⟨same.1, same.2.1⟩ same.2.2
      · intro sameTarget c atC
        rw [sameTarget, found', Option.some.injEq] at atC
        by_contra notExit
        exact last (by simpa [Node.kind, ← atC] using notExit) f mem sameTarget
  · rintro ⟨⟨noExit, noTrigger, noLoop, offers⟩, apart, noReturn⟩
    have free : branchRejection? edges source e.source e.door = none := by
      refine branch.2 ⟨offers, fun f mem sameSource sameDoor => ?_⟩
      exact ((Edge.leaveApart_iff found).1 (apart f mem).toLeaveApart).2 sameSource sameDoor
    refine ⟨noExit, noTrigger, noLoop, fun f mem same sameDoor => ?_, noReturn, ?_⟩
    · exact (apart f mem).connections same.1 same.2 sameDoor
    · simp only [free, ite_some_eq_none_iff, not_exists, not_and, and_true]
      intro notExit f mem sameTarget
      have exit := (apart f mem).inputs sameTarget _ (sameTarget ▸ found')
      simp [Node.kind, exit] at notExit

/-- A text that is asked for is given exactly when it is not empty. -/
theorem given_eq_some_iff {text : Option String} {s : String} :
    given text = some s ↔ text = some s ∧ s ≠ "" := by
  cases text with
  | none => simp [given]
  | some t =>
    simp only [given]
    split
    · next void =>
      rw [String.isEmpty_iff] at void
      simp [void]
    · next full =>
      rw [String.isEmpty_iff] at full
      constructor
      · rintro ⟨rfl⟩
        exact ⟨rfl, full⟩
      · rintro ⟨h, -⟩
        exact h

/-- A connection is granted exactly when both ends are given and the edge it asks for fits, stands
apart from the others and closes no loop; what is granted is that edge. -/
theorem check_eq_ok_iff {c : Connection} {e : Edge} (source : c.source = some e.source)
    (target : c.target = some e.target) (door : c.sourceHandle.getD "" = e.door) :
    (∃ f, c.check nodes edges = .ok f) ↔
      (e.source ≠ "" ∧ e.target ≠ "") ∧ e.Fits (Workflow.settings? nodes)
        ∧ (∀ f ∈ edges, f.Apart (Workflow.settings? nodes) e)
        ∧ ¬ Paths.Leads edges e.target e.source := by
  by_cases named : e.source ≠ "" ∧ e.target ≠ ""
  · have givenSource : given c.source = some e.source := given_eq_some_iff.2 ⟨source, named.1⟩
    have givenTarget : given c.target = some e.target := given_eq_some_iff.2 ⟨target, named.2⟩
    simp only [check, givenSource, givenTarget, door]
    cases atSource : Workflow.indexed? nodes e.source with
    | none =>
      have missing := Workflow.not_fits_of_missing (.inl atSource)
      simp [missing]
    | some s =>
      cases atTarget : Workflow.indexed? nodes e.target with
      | none =>
        have missing := Workflow.not_fits_of_missing (.inr atTarget)
        simp [missing]
      | some t =>
        have granted := @rejection?_eq_none_iff nodes edges s t e atSource atTarget
        cases refused : rejection? edges s t e.source e.target e.door with
        | none =>
          exact ⟨fun _ => ⟨named, granted.1 refused⟩,
            fun _ => ⟨c.edge s e.source e.target, by simp only [refused]⟩⟩
        | some r => simp [named, ← granted, refused]
  · have ungiven : given c.source = none ∨ given c.target = none := by
      simp only [Option.eq_none_iff_forall_ne_some, ne_eq, given_eq_some_iff, source, target]
      grind
    simp only [check, named, false_and, iff_false]
    rintro ⟨f, granted⟩
    split at granted
    · next s t givenSource givenTarget => simp [givenSource, givenTarget] at ungiven
    · cases granted

theorem door_given (text : Option String) : (given text).getD "" = text.getD "" := by
  cases text with
  | none => rfl
  | some t =>
    simp only [given]
    split
    · next void => simp [String.isEmpty_iff.1 void]
    · rfl

theorem given_eq_filter (text : Option String) : given text = text.filter (· ≠ "") := by
  cases text with
  | none => rfl
  | some t => by_cases void : t = "" <;> simp [given, void, Option.filter]

/-- A connection is granted exactly when its check passes, and gives the checked edge under some
identifier. -/
theorem connect_eq_ok_iff {c : Connection} {f : Fresh Edge} :
    c.connect nodes edges = .ok f ↔ ∃ e, c.check nodes edges = .ok e ∧ e.identify = f := by
  unfold connect
  cases c.check nodes edges <;> simp [Except.map]

/-- A granted edge has the ends that were asked for, and the handles that are not empty. -/
theorem edge_of_check {c : Connection} {f : Edge} (granted : c.check nodes edges = .ok f) :
    (c.source = some f.source ∧ c.target = some f.target)
      ∧ f.sourceHandle = given c.sourceHandle ∧ f.targetHandle = given c.targetHandle := by
  unfold check at granted
  split at granted
  · next s t source target =>
    split at granted
    · split at granted
      · cases granted
      · cases granted
        exact ⟨⟨(given_eq_some_iff.1 source).1, (given_eq_some_iff.1 target).1⟩, rfl, rfl⟩
    · cases granted
  · cases granted

/-- A granted edge keeps sound edges sound, whatever it carries besides its ends and its door. -/
theorem sound_of_check {c : Connection} {e f : Edge} (h : Workflow.Sound (Workflow.settings? nodes) edges)
    (granted : c.check nodes edges = .ok f) (source : e.source = f.source)
    (target : e.target = f.target) (door : e.door = f.door) :
    Workflow.Sound (Workflow.settings? nodes) (edges ++ [e]) := by
  obtain ⟨⟨atSource, atTarget⟩, handle, -⟩ := edge_of_check granted
  have asked : c.sourceHandle.getD "" = e.door := by
    rw [door, Edge.door, handle, door_given]
  have allowed := (check_eq_ok_iff (source ▸ atSource) (target ▸ atTarget) asked).1 ⟨f, granted⟩
  exact Workflow.sound_concat_iff.2 ⟨h, allowed.2⟩

end Connection

/-- On a valid workflow, a connection between two texts is granted exactly when the workflow with any
edge between them on these handles is valid again; what is granted has these ends, and these handles
as far as they are not empty. -/
theorem Workflow.connects_iff_valid (w : Workflow) (named : ∀ n ∈ w.nodes, n.id ≠ "")
    (valid : w.problems = []) (s t : String) (sourceHandle targetHandle : Option String) :
    (∀ e : Edge, e.source = s → e.target = t → e.sourceHandle = sourceHandle →
        e.targetHandle = targetHandle →
        ((∃ f, Connection.connect ⟨some s, some t, sourceHandle, targetHandle⟩ w.nodes w.edges = .ok f)
          ↔ (w.addEdge e).problems = []))
      ∧ ∀ f, Connection.connect ⟨some s, some t, sourceHandle, targetHandle⟩ w.nodes w.edges = .ok f →
          ∀ ids, (f.run ids).1.source = s ∧ (f.run ids).1.target = t
            ∧ (f.run ids).1.sourceHandle = sourceHandle.filter (· ≠ "")
            ∧ (f.run ids).1.targetHandle = targetHandle.filter (· ≠ "") := by
  obtain ⟨one, distinct, sound⟩ := (problems_eq_nil_iff w).1 valid
  have unnamed : settings? w.nodes "" = none := by
    rw [settings?_eq_none_iff]
    rintro mem
    obtain ⟨n, memN, void⟩ := List.mem_map.1 mem
    exact named n memN void
  refine ⟨fun e source target sourceHandle' _ => ?_, fun f granted ids => ?_⟩
  · subst source target sourceHandle'
    have ends : e.Fits (settings? w.nodes) → e.source ≠ "" ∧ e.target ≠ "" := by
      intro fits
      have source := fits.source_isSome
      have target := fits.target_isSome
      refine ⟨fun void => ?_, fun void => ?_⟩
      · simp [void, unnamed] at source
      · simp [void, unnamed] at target
    have granted : (∃ f, Connection.connect ⟨some e.source, some e.target, e.sourceHandle, targetHandle⟩
        w.nodes w.edges = .ok f) ↔
        ∃ f, Connection.check ⟨some e.source, some e.target, e.sourceHandle, targetHandle⟩
          w.nodes w.edges = .ok f := by
      simp only [Connection.connect_eq_ok_iff]
      constructor
      · rintro ⟨f, g, checked, -⟩
        exact ⟨g, checked⟩
      · rintro ⟨g, checked⟩
        exact ⟨g.identify, g, checked, rfl⟩
    rw [granted, Connection.check_eq_ok_iff rfl rfl rfl, problems_eq_nil_iff]
    show _ ↔ _ ∧ _ ∧ Sound (settings? w.nodes) (w.edges ++ [e])
    rw [sound_concat_iff]
    constructor
    · rintro ⟨-, fits, rest⟩
      exact ⟨one, distinct, sound, fits, rest⟩
    · rintro ⟨-, -, -, fits, rest⟩
      exact ⟨ends fits, fits, rest⟩
  · obtain ⟨e, checked, rfl⟩ := Connection.connect_eq_ok_iff.1 granted
    obtain ⟨⟨source, target⟩, handle, handle'⟩ := Connection.edge_of_check checked
    rw [Connection.given_eq_filter] at handle handle'
    exact ⟨(Option.some.inj source).symm, (Option.some.inj target).symm, handle, handle'⟩

/-- A trigger, a condition of which one branch is connected, and an exit. -/
def Workflow.forked : Workflow :=
  { id := "w"
    nodes := [{ id := "t", config := .trigger {} }, { id := "c", config := .condition {} },
      { id := "x", config := .exit {} }]
    edges := [{ id := "e1", source := "t", target := "c" },
      { id := "e2", source := "c", target := "x", sourceHandle := some "else" }] }

/-- Of the forked workflow, the branch that is still free is granted. -/
theorem Workflow.connects_iff_valid_forked :
    ((∃ f, Connection.connect ⟨some "c", some "x", some "if", none⟩ forked.nodes forked.edges = .ok f)
        ↔ (forked.addEdge
            { id := "e3", source := "c", target := "x", sourceHandle := some "if" }).problems = [])
      ∧ (forked.addEdge
          { id := "e3", source := "c", target := "x", sourceHandle := some "if" }).problems = [] := by
  have named : ∀ n ∈ forked.nodes, n.id ≠ "" := by simp [forked]
  have valid : forked.problems = [] := by decide +kernel
  have agree := connects_iff_valid forked named valid "c" "x" (some "if") none
  exact ⟨agree.1 _ rfl rfl rfl rfl, by decide +kernel⟩

end Journey
