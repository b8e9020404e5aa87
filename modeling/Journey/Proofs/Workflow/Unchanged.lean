import Journey.Proofs.Graph.WellFormed
import Journey.Proofs.Runner.Recompiled
import Journey.Proofs.Workflow.Reloaded
import Journey.Simulation

/-!
# Journey.Proofs.Workflow.Unchanged -- a workflow that is stored and restored does what it did

What is restored of a stored workflow resumes it (`Workflow.Resumes`): node by node with the identifier and
the settings as they are read again, edge by edge with the identifier, the ends and, where the edge leaves a
block with branches, the handle.  Titles, labels, positions and counters may be repaired on the way, and a
pause of open length is written out.

The walk that writes a flow and the dry run see no more than this.  At each node both find corresponding
nodes and edges (`Resumes.indexed?`, `Resumes.edgesFrom`) and do the same there, so that by induction on the
nodes they may still pass the flows are the same up to names (`outline_walk`), and the dry runs visit the
same (`route_run`).  What can be read on the way is the same as well.  Main statement:
`sameConduct_tryRestore`.
-/

namespace Journey

set_option autoImplicit false

open Journey.Text (Trimmed)

/-! ## Lists whose members correspond -/

section Corresponding

variable {α β : Type} {R : α → β → Prop} {as : List α} {bs : List β}

theorem rel_head? (h : List.Forall₂ R as bs) : Option.Rel R as.head? bs.head? := by
  cases h with
  | nil => exact .none
  | cons first _ => exact .some first

theorem rel_find? {p : α → Bool} {q : β → Bool} (h : List.Forall₂ R as bs)
    (agree : ∀ a b, R a b → p a = q b) : Option.Rel R (as.find? p) (bs.find? q) := by
  induction h with
  | nil => exact .none
  | cons first _ ih =>
    rw [List.find?_cons, List.find?_cons, agree _ _ first]
    split
    · exact .some first
    · exact ih

theorem map_eq_of_forall₂ {γ : Type} {f : α → γ} {g : β → γ} (h : List.Forall₂ R as bs)
    (agree : ∀ a b, R a b → f a = g b) : as.map f = bs.map g := by
  have images : List.Forall₂ Eq (as.map f) (bs.map g) := List.rel_map agree h
  rwa [List.forall₂_eq_eq_eq] at images

theorem isSome_eq_of_rel {a : Option α} {b : Option β} (h : Option.Rel R a b) : a.isSome = b.isSome := by
  cases h <;> rfl

end Corresponding

/-! ## Nodes, edges and workflows that resume others -/

/-- A node has the identifier of another, and the settings that are read from what is stored of it. -/
structure Node.Resumes (m n : Node) : Prop where
  id : m.id = n.id
  config : m.config = n.config.reloaded

/-- Two edges that leave a node lead to the same node, by the same handle if the node has branches. -/
structure Edge.Alike (n : Node) (f e : Edge) : Prop where
  id : f.id = e.id
  target : f.target = e.target
  handle : Workflow.branches n.kind = true → f.sourceHandle = e.sourceHandle

/-- The edges on a handle of a node with branches are alike. -/
theorem Edge.rel_onHandle {n : Node} {fs es : List Edge} (branching : Workflow.branches n.kind = true)
    (alike : List.Forall₂ (Edge.Alike n) fs es) (handle : String) :
    Option.Rel (Edge.Alike n) (fs.find? fun f => f.sourceHandle == some handle)
      (es.find? fun e => e.sourceHandle == some handle) :=
  rel_find? alike fun f e same => by rw [same.handle branching]

/-- An edge has the identifier and the ends of another that leaves one of the nodes, and its handle if that
node has branches. -/
structure Edge.Resumes (nodes : List Node) (f e : Edge) : Prop where
  id : f.id = e.id
  source : f.source = e.source
  target : f.target = e.target
  handle : ∀ n ∈ nodes, n.id = e.source → Workflow.branches n.kind = true →
    f.sourceHandle = e.sourceHandle

/-- Every node and every edge of a workflow resumes one of another, in the same order. -/
structure Workflow.Resumes (v w : Workflow) : Prop where
  nodes : List.Forall₂ Node.Resumes v.nodes w.nodes
  edges : List.Forall₂ (Edge.Resumes w.nodes) v.edges w.edges

namespace Node.Resumes

variable {m n : Node} (h : m.Resumes n)

include h

theorem kind : m.kind = n.kind := by rw [Node.kind, h.config, Config.kind_reloaded, Node.kind]

theorem isA (kind : NodeKind) : m.isA kind = n.isA kind := by rw [Node.isA, Node.isA, h.kind]

end Node.Resumes

namespace Workflow.Resumes

variable {v w : Workflow} (h : v.Resumes w)

include h

theorem indexed? (id : String) :
    Option.Rel Node.Resumes (Workflow.indexed? v.nodes id) (Workflow.indexed? w.nodes id) :=
  rel_find? (List.forall₂_reverse_iff.2 h.nodes) fun m n same => by rw [same.id]

theorem trigger? : Option.Rel Node.Resumes v.trigger? w.trigger? :=
  rel_find? h.nodes fun _ _ same => same.isA .trigger

/-- The edges that leave a node are alike. -/
theorem edgesFrom {n : Node} (mem : n ∈ w.nodes) :
    List.Forall₂ (Edge.Alike n) (Workflow.edgesFrom v.edges n.id) (Workflow.edgesFrom w.edges n.id) := by
  have filtered : List.Forall₂ (Edge.Resumes w.nodes) (Workflow.edgesFrom v.edges n.id)
      (Workflow.edgesFrom w.edges n.id) := by
    refine List.rel_filter (fun f e same => ?_) h.edges
    show (f.source == n.id) = true ↔ (e.source == n.id) = true
    rw [same.source]
  have leaving : ∀ f ∈ Workflow.edgesFrom v.edges n.id, f.source = n.id := by
    intro f mem
    simpa using List.of_mem_filter mem
  refine ((List.forall₂_and_left _ _).2 ⟨leaving, filtered⟩).imp ?_
  rintro f e ⟨leaves, same⟩
  exact ⟨same.id, same.target, same.handle n mem (leaves.symm.trans same.source)⟩

end Workflow.Resumes

/-! ## Flows -/

/-- What matters of a step: its identifier and what it does, where a pause that was left open is one of
length one. -/
def Step.mark (s : Step) : String × Action := (s.id, s.action.stated)

/-- What matters of a finding: how bad it is and its code. -/
def Finding.mark (f : Finding) : Severity × String := (f.severity, f.code)

namespace Compiled

/-- What matters of a flow and of what was lost on the way to it: neither names nor messages. -/
def outline (c : Compiled) : List (String × Action) × List (Severity × String) :=
  (c.steps.map Step.mark, c.findings.map Finding.mark)

theorem outline_before {s t : Step} {fs gs : List Finding} {c d : Compiled} (step : s.mark = t.mark)
    (findings : fs.map Finding.mark = gs.map Finding.mark) (rest : c.outline = d.outline) :
    (before s fs c).outline = (before t gs d).outline := by
  obtain ⟨steps, later⟩ := Prod.mk.inj rest
  simp only [outline, before, List.map_cons, List.map_append, step, findings, steps, later]

end Compiled

namespace Compilation

open Workflow (branches edgesFrom)

variable {v w : Workflow} {m n : Node} {rest rest' : String → Compiled} {fs es : List Edge}

theorem mark_emailStep (same : m.id = n.id) (c : EmailConfig) (extra : Fields) :
    (emailStep m { c with extra }).mark = (emailStep n c).mark := by
  simp [emailStep, Step.mark, same]

theorem mark_waitStep (same : m.id = n.id) (c : WaitConfig) (extra : Fields) :
    (waitStep m { c with duration := some c.length, extra }).mark = (waitStep n c).mark := by
  have length : (handedOn (some c.length)).getD 1.0 = (handedOn c.duration).getD 1.0 := by
    rw [WaitConfig.length]
    cases c.duration with
    | none => decide +kernel
    | some x => rfl
  simp [waitStep, Step.mark, Action.stated, same, length]

theorem outline_follow (h : v.Resumes w) (same : m.Resumes n) (mem : n ∈ w.nodes)
    (go : ∀ id, (rest id).outline = (rest' id).outline) :
    (follow v m rest).outline = (follow w n rest').outline := by
  have leading := rel_head? (h.edgesFrom mem)
  rw [follow, follow, same.id]
  generalize (edgesFrom v.edges n.id).head? = f at leading ⊢
  generalize (edgesFrom w.edges n.id).head? = e at leading ⊢
  cases leading with
  | none => rfl
  | some alike =>
    dsimp only
    rw [alike.target]
    exact go _

/-! ### Conditions -/

/-- So are the edges on the first of several handles that has one. -/
theorem rel_edgeOn (branching : branches n.kind = true) (alike : List.Forall₂ (Edge.Alike n) fs es)
    (handles : List String) : Option.Rel (Edge.Alike n) (edgeOn fs handles) (edgeOn es handles) := by
  induction handles with
  | nil => exact .none
  | cons handle handles ih =>
    have first := Edge.rel_onHandle branching alike handle
    rw [edgeOn, edgeOn, List.findSome?_cons, List.findSome?_cons]
    generalize (fs.find? fun f => f.sourceHandle == some handle) = f at first ⊢
    generalize (es.find? fun e => e.sourceHandle == some handle) = e at first ⊢
    cases first with
    | none => exact ih
    | some same => exact .some same

theorem rel_onward (h : v.Resumes w) {f e : Option Edge} (alike : Option.Rel (Edge.Alike n) f e) :
    Option.Rel Node.Resumes (onward v.nodes f) (onward w.nodes e) := by
  cases alike with
  | none => exact .none
  | some same =>
    rename_i f e
    have found := h.indexed? e.target
    rw [onward, onward, Option.bind_some, Option.bind_some, same.target]
    generalize Workflow.indexed? v.nodes e.target = a at found ⊢
    generalize Workflow.indexed? w.nodes e.target = b at found ⊢
    cases found with
    | none => exact .none
    | some same =>
      rw [Option.filter_some, Option.filter_some, same.isA]
      split
      · exact .some same
      · exact .none

/-- Two plans take the same step, lose the same and go on to corresponding nodes. -/
structure PlansAlike (p q : ConditionPlan) : Prop where
  step : p.step.mark = q.step.mark
  findings : p.findings.map Finding.mark = q.findings.map Finding.mark
  ifNode : Option.Rel Node.Resumes p.ifNode q.ifNode
  elseNode : Option.Rel Node.Resumes p.elseNode q.elseNode

theorem plansAlike_planCondition (h : v.Resumes w) (same : m.id = n.id)
    (branching : branches n.kind = true) (clauses : List Clause)
    (alike : List.Forall₂ (Edge.Alike n) fs es) :
    PlansAlike (planCondition v.nodes m clauses fs) (planCondition w.nodes n clauses es) := by
  have ifEdge := rel_edgeOn branching alike [Handle.ifBranch, "yes"]
  have elseEdge := rel_edgeOn branching alike [Handle.elseBranch, "no"]
  have ifNode := rel_onward h ifEdge
  have elseNode := rel_onward h elseEdge
  refine ⟨?_, ?_, ifNode, elseNode⟩
  · simp only [planCondition, Step.mark, Action.stated, verdict, same, isSome_eq_of_rel ifNode,
      isSome_eq_of_rel elseNode]
  · have ends : ((edgeOn fs [Handle.ifBranch, "yes"]).isNone
          || (edgeOn fs [Handle.elseBranch, "no"]).isNone)
        = ((edgeOn es [Handle.ifBranch, "yes"]).isNone
          || (edgeOn es [Handle.elseBranch, "no"]).isNone) := by
      simp only [← Option.not_isSome, isSome_eq_of_rel ifEdge, isSome_eq_of_rel elseEdge]
    simp only [planCondition, List.map_append, ends]
    congr 1
    · congr 1
      · split <;> rfl
      · split <;> rfl
    · cases ((clauses.head?.getD {}).forRunner).2.2 <;> rfl

theorem outline_continuation {p q : ConditionPlan} (plans : PlansAlike p q) (same : m.id = n.id)
    (go : ∀ id, (rest id).outline = (rest' id).outline) :
    (continuation p m rest).outline = (continuation q n rest').outline := by
  obtain ⟨-, -, ifNode, elseNode⟩ := plans
  unfold continuation
  generalize p.ifNode = a at ifNode ⊢
  generalize q.ifNode = b at ifNode ⊢
  generalize p.elseNode = c at elseNode ⊢
  generalize q.elseNode = d at elseNode ⊢
  cases ifNode with
  | none =>
    cases elseNode with
    | none => exact same ▸ rfl
    | some other =>
      dsimp only
      rw [other.id]
      exact go _
  | some one =>
    cases elseNode with
    | none =>
      dsimp only
      rw [one.id]
      exact go _
    | some other =>
      dsimp only
      rw [one.id, other.id]
      split
      · exact go _
      · exact same ▸ rfl

/-! ### The walk -/

/-- The walks along a workflow and one that resumes it write the same. -/
theorem outline_walk (h : v.Resumes w) (budget : Nat) (visited : List String) (last current : String) :
    (walk v budget visited last current).outline = (walk w budget visited last current).outline := by
  induction budget generalizing visited last current with
  | zero => rfl
  | succ budget ih =>
    have found := h.indexed? current
    have listed : ∀ n, Workflow.indexed? w.nodes current = some n → n ∈ w.nodes := fun n there =>
      (Workflow.mem_of_indexed? there).1
    unfold walk
    generalize Workflow.indexed? v.nodes current = a at found ⊢
    generalize Workflow.indexed? w.nodes current = b at found listed ⊢
    split
    · rfl
    · cases found with
      | none => rfl
      | some same =>
        rename_i m n
        have mem := listed n rfl
        have go := ih (current :: visited) n.id
        dsimp only
        rw [same.config, same.id]
        -- both stand at nodes of one kind, and only a pause and a condition are read differently
        cases config : n.config with
        | trigger c => rfl
        | sendEmail c =>
          exact Compiled.outline_before (mark_emailStep same.id c _) rfl (outline_follow h same mem go)
        | wait c =>
          exact Compiled.outline_before (mark_waitStep same.id c _) rfl (outline_follow h same mem go)
        | condition c =>
          have branching : branches n.kind = true := by
            rw [Node.kind, config]
            rfl
          have plans := plansAlike_planCondition h same.id branching c.canonical (h.edgesFrom mem)
          have clauses : ConditionConfig.canonical { clauses := c.canonical } = c.canonical :=
            Config.clauses_reloaded (.condition c)
          dsimp only [Config.reloaded]
          rw [clauses]
          exact Compiled.outline_before plans.step plans.findings (outline_continuation plans same.id go)
        | split c => rfl
        | webhook c => rfl
        | exit c => rfl

end Compilation

/-- The flows of a workflow and one that resumes it are the same up to names. -/
theorem Workflow.Resumes.outline_compile {v w : Workflow} (h : v.Resumes w) (budget : Nat) :
    (v.compile budget).outline = (w.compile budget).outline := by
  have start := h.trigger?
  have listed : ∀ t, w.trigger? = some t → t ∈ w.nodes := fun _ found =>
    List.mem_of_find?_eq_some found
  unfold compile
  generalize v.trigger? = a at start ⊢
  generalize w.trigger? = b at start listed ⊢
  cases start with
  | none => rfl
  | some same =>
    dsimp only
    rw [same.id]
    exact Compilation.outline_follow h same (listed _ rfl) (Compilation.outline_walk h budget [] _)

/-! ## Dry runs -/

namespace Simulation

open Workflow (branches)

variable {v w : Workflow} {m n : Node} {fs es : List Edge}

/-- What is visited on a dry run, and whether it is complete. -/
def route (s : Simulation) : List String × List String × Bool := (s.nodes, s.edges, s.completed)

theorem route_passing (same : m.id = n.id) (e f : Event) (edge : Option String) {s t : Simulation}
    (rest : s.route = t.route) : (passing m e edge s).route = (passing n f edge t).route := by
  simp only [route, Prod.mk.injEq] at rest
  simp only [route, passing, same, rest]

/-- Settings that are read again decide in the same way, and only blocks with branches decide. -/
theorem decide_resumes (same : m.Resumes n) (contact : Contact) (roll : Float) :
    (decide m contact roll).2 = (decide n contact roll).2
      ∧ ((decide n contact roll).2.isSome = true → branches n.kind = true) := by
  unfold decide
  rw [same.config, Node.kind]
  cases n.config with
  | condition c =>
    have clauses : ConditionConfig.canonical { clauses := c.canonical } = c.canonical :=
      Config.clauses_reloaded (.condition c)
    dsimp only [Config.reloaded]
    rw [clauses]
    exact ⟨rfl, fun _ => rfl⟩
  | split c => exact ⟨rfl, fun _ => rfl⟩
  | _ => exact ⟨rfl, fun impossible => absurd impossible Bool.false_ne_true⟩

theorem rel_nextEdge (alike : List.Forall₂ (Edge.Alike n) fs es) {handle : Option String}
    (branching : handle.isSome = true → branches n.kind = true) :
    Option.Rel (Edge.Alike n) (nextEdge fs handle) (nextEdge es handle) := by
  have first := rel_head? alike
  cases handle with
  | none => exact first
  | some handle =>
    have on := Edge.rel_onHandle (branching rfl) alike handle
    unfold nextEdge edgeOn
    dsimp only
    generalize (fs.find? fun f => f.sourceHandle == some handle) = f at on ⊢
    generalize (es.find? fun e => e.sourceHandle == some handle) = e at on ⊢
    cases on with
    | none => exact first
    | some same => exact .some same

/-- The dry runs along a workflow and one that resumes it visit the same. -/
theorem route_run (h : v.Resumes w) (contact : Contact) (rolls : Nat → Float) (budget : Nat)
    (p : Progress) (current : String) :
    (run v contact rolls budget p current).route = (run w contact rolls budget p current).route := by
  induction budget generalizing p current with
  | zero => rfl
  | succ budget ih =>
    have found := h.indexed? current
    have listed : ∀ n, Workflow.indexed? w.nodes current = some n → n ∈ w.nodes := fun _ there =>
      (Workflow.mem_of_indexed? there).1
    unfold run
    generalize Workflow.indexed? v.nodes current = a at found ⊢
    generalize Workflow.indexed? w.nodes current = b at found listed ⊢
    cases found with
    | none => rfl
    | some same =>
      rename_i m n
      obtain ⟨handle, branching⟩ := decide_resumes same contact (rolls p.rolled)
      have next := rel_nextEdge (h.edgesFrom (listed n rfl)) branching
      dsimp only
      rw [same.isA, same.isA, same.id, handle]
      generalize nextEdge (Workflow.edgesFrom v.edges n.id) _ = f at next ⊢
      generalize nextEdge (Workflow.edgesFrom w.edges n.id) _ = e at next ⊢
      split
      · exact route_passing same.id _ _ _ rfl
      · cases next with
        | none => exact route_passing same.id _ _ _ rfl
        | some alike =>
          dsimp only
          rw [alike.id, alike.target]
          exact route_passing same.id _ _ _ (ih _ _)

end Simulation

/-- The dry runs of a workflow and one that resumes it visit the same. -/
theorem Workflow.Resumes.route_simulate {v w : Workflow} (h : v.Resumes w) (contact : Contact)
    (rolls : Nat → Float) (budget : Nat) :
    (v.simulate contact rolls budget).route = (w.simulate contact rolls budget).route := by
  have start := h.trigger?
  unfold simulate
  generalize v.trigger? = a at start ⊢
  generalize w.trigger? = b at start ⊢
  cases start with
  | none => rfl
  | some same =>
    dsimp only
    rw [same.id]
    exact Simulation.route_run h contact rolls budget {} _

/-! ## What can be read on the way -/

namespace Workflow.Resumes

variable {v w : Workflow} (h : v.Resumes w)

include h

/-- Where all settings can be read, a look at corresponding nodes fails for the same reason. -/
theorem firstFailure?_visitConversions (reads : v.Legible) (reads' : w.Legible) (contact : Contact)
    (visited : List String) :
    Conversion.firstFailure? (v.visitConversions contact visited)
      = Conversion.firstFailure? (w.visitConversions contact visited) := by
  refine Conversion.firstFailure?_flatMap_congr fun id _ => ?_
  have found := h.indexed? id
  have read : ∀ m, Workflow.indexed? v.nodes id = some m → m.config.Legible := fun m there =>
    reads m (Workflow.mem_of_indexed? there).1
  have read' : ∀ n, Workflow.indexed? w.nodes id = some n → n.config.Legible := fun n there =>
    reads' n (Workflow.mem_of_indexed? there).1
  generalize Workflow.indexed? v.nodes id = a at found read ⊢
  generalize Workflow.indexed? w.nodes id = b at found read' ⊢
  cases found with
  | none => rfl
  | some same =>
    rename_i m n
    have first := read m rfl
    have second := read' n rfl
    rw [same.config] at first
    rw [Option.map_some, Option.map_some, Option.getD_some, Option.getD_some, same.config]
    generalize n.config = settings at first second
    cases settings with
    | condition c =>
      have clauses : ConditionConfig.canonical { clauses := c.canonical } = c.canonical :=
        Config.clauses_reloaded (.condition c)
      dsimp only [Config.reloaded, Config.Legible, Config.conversions] at first second ⊢
      rw [Simulation.pickConversions, Simulation.pickConversions, clauses,
        Conversion.firstFailure?_append_of_succeed first, Conversion.firstFailure?_append_of_succeed second]
    | _ => rfl

/-- The dry runs of a workflow and one that resumes it visit the same, or fail for the same reason. -/
theorem route_trySimulate (reads : v.Legible) (reads' : w.Legible) (contact : Contact) (rolls : Nat → Float)
    (budget : Nat) :
    (v.trySimulate contact rolls budget).map Simulation.route
      = (w.trySimulate contact rolls budget).map Simulation.route := by
  have route := h.route_simulate contact rolls budget
  have nodes : (v.simulate contact rolls budget).nodes = (w.simulate contact rolls budget).nodes :=
    congrArg Prod.fst route
  rw [Workflow.trySimulate, Workflow.trySimulate, Conversion.map_after, Conversion.map_after, nodes, route,
    Conversion.after, Conversion.after, h.firstFailure?_visitConversions reads reads' contact]

end Workflow.Resumes

/-! ## What is restored resumes what was stored -/

/-- Settings in which no foreign member is spelled like a field. -/
def Config.Unmixed (c : Config) : Prop :=
  ∀ key ∈ Key.spellings (keys c.kind), Fields.get? c.extra key = none

theorem Config.Unmixed.apart {c : Config} (h : c.Unmixed) : c.Apart := by
  have spelled {m : Key × Document} (mem : m ∈ c.members) :
      m.1.written ∈ Key.spellings (keys c.kind) ∧ m.1.other ∈ Key.spellings (keys c.kind) := by
    have key := List.mem_map_of_mem (f := Prod.fst) mem
    rw [map_fst_members] at key
    exact ⟨List.mem_flatMap.2 ⟨_, key, by simp⟩, List.mem_flatMap.2 ⟨_, key, by simp⟩⟩
  refine ⟨?_, fun m mem => h _ (spelled mem).1, fun m mem _ => h _ (spelled mem).2⟩
  rw [map_fst_members]
  exact proper_keys c.kind

namespace Workflow

variable {w : Workflow}

/-- A handle that a condition accepts has no blanks around it, and is none of the older ones. -/
theorem current_of_accepts {d : Document} {door : String}
    (accepted : Condition.accepts (Condition.canonical d) door = true) :
    (Trimmed door ∧ door ≠ "") ∧ currentHandle door = door := by
  rcases Condition.accepts_iff.1 accepted with clause | rfl
  · rcases (Condition.canonical_canonical d).known clause with rfl | ⟨n, -, rfl⟩
    · decide +kernel
    · have other {s : String} (h : s.toList.head? ≠ some 'e') : Handle.elseIf n ≠ s :=
        Handle.elseIf_ne_of_head? h n
      refine ⟨⟨Handle.trim_elseIf n, other (by decide)⟩, ?_⟩
      rw [currentHandle, if_neg (other (by decide)), if_neg (other (by decide))]
  · decide +kernel

theorem target_restoreEdge (source : Node) (target : String) (row : Fields) :
    (restoreEdge source target row).target = target := rfl

/-- A door of a block with branches is restored as it was stored. -/
theorem restoreEdge_of_offers {source : Node} {c : Config} {e : Edge} (kind : source.kind = c.kind)
    (branching : branches c.kind = true) (offers : c.Offers e.door) (target : String) :
    (restoreEdge source target (e.document .dropped).fields).sourceHandle = e.sourceHandle := by
  have settled : (Trimmed e.door ∧ e.door ≠ "")
      ∧ (source.isA .condition = true → currentHandle e.door = e.door) := by
    rw [Node.isA, kind]
    cases c with
    | condition c =>
      obtain ⟨tidy, current⟩ := current_of_accepts offers
      exact ⟨tidy, fun _ => current⟩
    | split c =>
      have all : ∀ door ∈ splitHandles, Trimmed door ∧ door ≠ "" := by decide +kernel
      exact ⟨all _ offers, fun other => absurd other Bool.false_ne_true⟩
    | _ => cases branching
  obtain ⟨tidy, current⟩ := settled
  have handle : e.sourceHandle = some e.door := by
    rw [Edge.door] at tidy ⊢
    cases stated : e.sourceHandle with
    | none =>
      rw [stated] at tidy
      exact absurd rfl tidy.2
    | some door => rfl
  rw [restoreEdge_document]
  dsimp only
  rw [handle, Document.ofText?, Document.trimmed?_text tidy]
  split
  · next condition => rw [Option.map_some, current condition]
  · rfl

/-- What is restored of a stored workflow resumes it, where settings are not mixed with foreign members
and edges leave by doors that are there. -/
theorem Addressed.resumes (h : w.Addressed) (unmixed : ∀ n ∈ w.nodes, n.config.Unmixed)
    (doors : ∀ e ∈ w.edges, ∀ n ∈ w.nodes, n.id = e.source → n.config.Offers e.door)
    (fallback : String) (ids : IdSource) : ((restore w.document fallback).run ids).1.Resumes w := by
  obtain ⟨id, edges, restored, each, -⟩ := h.run_restore fallback ids
  have apart {p : Node × Nat} (there : p ∈ w.nodes.zipIdx) : p.1 ∈ w.nodes ∧ p.1.config.Apart := by
    have listed := List.mem_map_of_mem (f := Prod.fst) there
    rw [List.zipIdx_map_fst] at listed
    exact ⟨listed, (unmixed p.1 listed).apart⟩
  rw [restored]
  refine ⟨?_, ?_⟩
  · rw [nodes_underId]
    have pairs : List.Forall₂ Node.Resumes (w.nodes.zipIdx.map reread) (w.nodes.zipIdx.map Prod.fst) := by
      rw [List.forall₂_map_left_iff, List.forall₂_map_right_iff, List.forall₂_same]
      exact fun p there => ⟨id_reread p, config_reread (apart there).2⟩
    rwa [List.zipIdx_map_fst] at pairs
  · rw [edges_underId]
    refine List.Forall₂.flip (((List.forall₂_and_left _ _).2 ⟨fun _ mem => mem, each⟩).imp ?_)
    rintro e f ⟨mem, reread⟩
    have name := reread.id (h.edgesNamed e.id (List.mem_map_of_mem mem)).1
    obtain ⟨source, there, leaves, rfl⟩ := reread
    refine ⟨name, leaves, target_restoreEdge _ _ _, fun n memN same branching => ?_⟩
    -- the node that the edge was restored from is the only one with the identifier
    obtain ⟨p, pair, rfl⟩ := List.mem_map.1 there
    have node : p.1 = n :=
      List.inj_on_of_nodup_map h.nodeIds (apart pair).1 memN
        ((id_reread p).symm.trans (leaves.trans same.symm))
    subst node
    exact restoreEdge_of_offers (kind_reread (apart pair).2) branching (doors e mem p.1 memN same) _

/-! ## Well-formed workflows -/

theorem WellFormed.offers (h : w.WellFormed) {e : Edge} (mem : e ∈ w.edges) {n : Node}
    (listed : n ∈ w.nodes) (leaves : n.id = e.source) : n.config.Offers e.door := by
  obtain ⟨s, -, source, -, -, -, -, offers⟩ := h.sound.fits e mem
  have own : settings? w.nodes e.source = some n.config :=
    (settings?_eq_some_iff h.nodeIds).2 ⟨n, listed, leaves, rfl⟩
  rw [source] at own
  rwa [Option.some.inj own] at offers

/-- A well-formed workflow keeps its identifiers if there are no blanks around them. -/
theorem WellFormed.addressed (h : w.WellFormed) (nonempty : w.nodes ≠ [])
    (nodesTrimmed : ∀ id ∈ w.nodeIds, Trimmed id)
    (edgesNamed : ∀ id ∈ w.edgeIds, Trimmed id ∧ id ≠ "") : w.Addressed where
  nonempty := nonempty
  named id mem := ⟨nodesTrimmed id mem, fun void => h.named (void ▸ mem)⟩
  nodeIds := h.nodeIds
  edgesNamed := edgesNamed
  edgeIds := h.edgeIds
  ends e mem := by
    obtain ⟨s, t, source, target, -⟩ := h.sound.fits e mem
    exact ⟨isSome_settings?.1 (source ▸ rfl), isSome_settings?.1 (target ▸ rfl)⟩

/-! ## The same conduct -/

/-- Two workflows have nodes of the same kinds and edges between the same nodes, under the same identifiers
and in the same order, give the same flows up to names, and lead every contact along the same way.  Where one
gives no flow or takes no dry run, neither does the other. -/
structure SameConduct (v w : Workflow) : Prop where
  nodes : (v.nodes.map fun n => (n.id, n.kind)) = w.nodes.map fun n => (n.id, n.kind)
  edges : (v.edges.map fun e => (e.id, e.source, e.target))
    = w.edges.map fun e => (e.id, e.source, e.target)
  compiled : ∀ budget, (v.tryCompile budget).map Compiled.outline = (w.tryCompile budget).map Compiled.outline
  simulated : ∀ contact rolls budget,
    (v.trySimulate contact rolls budget).map Simulation.route
      = (w.trySimulate contact rolls budget).map Simulation.route

theorem Resumes.sameConduct {v w : Workflow} (h : v.Resumes w) (reads : v.Legible) (reads' : w.Legible) :
    v.SameConduct w where
  nodes := map_eq_of_forall₂ h.nodes fun _ _ same => by rw [same.id, same.kind]
  edges := map_eq_of_forall₂ h.edges fun _ _ same => by rw [same.id, same.source, same.target]
  compiled budget := by
    rw [reads.tryCompile, reads'.tryCompile]
    exact congrArg Except.ok (h.outline_compile budget)
  simulated := h.route_trySimulate reads reads'

/-- A workflow that was stored is restored exactly if its settings can be read, and does then what it did
before. -/
theorem sameConduct_tryRestore (w : Workflow) (h : w.Addressed) (unmixed : ∀ n ∈ w.nodes, n.config.Unmixed)
    (doors : ∀ e ∈ w.edges, ∀ n ∈ w.nodes, n.id = e.source → n.config.Offers e.door)
    (fallback : String) (ids : IdSource) :
    ((∃ m, tryRestore w.document fallback = .ok m) ↔ w.Legible)
      ∧ ∀ m, tryRestore w.document fallback = .ok m → (m.run ids).1.SameConduct w := by
  have readable : Readable w.document ↔ w.Legible :=
    readable_document_iff fun n mem => (unmixed n mem).apart
  refine ⟨exists_tryRestore_iff.trans readable, fun m restored => ?_⟩
  obtain ⟨reads, rfl⟩ := tryRestore_eq_ok_iff.1 restored
  exact (h.resumes unmixed doors fallback ids).sameConduct (reads.legible_restore fallback ids)
    (readable.1 reads)

/-- A pause of open length before a fork with an edge that has the label of an older branch. -/
def awaited : Workflow :=
  { id := "w"
    nodes := [{ id := "t", config := .trigger {} }, { id := "p", config := .wait {} },
      { id := "c", config := .condition {} }, { id := "m", config := .sendEmail { subject := "Hello" } },
      { id := "x", config := .exit {} }]
    edges := [{ id := "e1", source := "t", target := "p" }, { id := "e2", source := "p", target := "c" },
      { id := "e3", source := "c", target := "m", sourceHandle := some "if", label := some "Yes" },
      { id := "e4", source := "c", target := "x", sourceHandle := some "else" },
      { id := "e5", source := "m", target := "x" }] }

theorem sameConduct_tryRestore_awaited :
    ∃ m, tryRestore awaited.document = .ok m
      ∧ let v := (m.run .strokes).1
        v.SameConduct awaited ∧ v.nodes.map (·.title) ≠ awaited.nodes.map (·.title)
          ∧ v.edges.map (·.label) = [none, none, some "If", some "Else", none] := by
  have canonical : ∀ n ∈ awaited.nodes, n.config.Canonical := by
    have standard := NodeKind.condition.canonical_standardConfig
    simp only [awaited, List.forall_mem_cons]
    exact ⟨trivial, trivial, standard, trivial, trivial, by simp⟩
  have wellFormed := wellFormed_of_valid (w := awaited) (by decide +kernel) (by decide) (by decide)
    canonical
  have addressed : awaited.Addressed :=
    wellFormed.addressed (List.cons_ne_nil _ _) (by decide +kernel) (by decide +kernel)
  have unmixed : ∀ n ∈ awaited.nodes, n.config.Unmixed := by
    simp [awaited, Config.Unmixed, Config.extra]
  obtain ⟨reads, same⟩ := sameConduct_tryRestore awaited addressed unmixed
    (fun e mem n listed leaves => wellFormed.offers mem listed leaves) untitled .strokes
  obtain ⟨m, restored⟩ := reads.2 (by decide +kernel)
  refine ⟨m, restored, same m restored, ?_⟩
  rw [← (tryRestore_eq_ok_iff.1 restored).2]
  decide +kernel

/-- A workflow whose condition asks for a handle that cannot be read is stored but not restored. -/
theorem not_sameConduct_overlong :
    overlong.Addressed ∧ (∀ n ∈ overlong.nodes, n.config.Unmixed)
      ∧ (∀ e ∈ overlong.edges, ∀ n ∈ overlong.nodes, n.id = e.source → n.config.Offers e.door)
      ∧ ¬ ∃ m, tryRestore overlong.document = .ok m ∧ (m.run .strokes).1.SameConduct overlong := by
  have unmixed : ∀ n ∈ overlong.nodes, n.config.Unmixed := by
    simp [overlong, Config.Unmixed, Config.extra, ConditionConfig.overlong]
  refine ⟨?_, unmixed, ?_, ?_⟩
  · exact ⟨List.cons_ne_nil _ _, by decide +kernel, by decide +kernel, by decide +kernel,
      by decide +kernel, by decide +kernel⟩
  · simp [overlong, Config.Offers]
  · rintro ⟨m, restored, -⟩
    have reads := (readable_document_iff fun n mem => (unmixed n mem).apart).1
      (exists_tryRestore_iff.1 ⟨m, restored⟩)
    exact not_legible_overlong rfl (reads _ (List.mem_cons_of_mem _ List.mem_cons_self))

end Workflow

end Journey
