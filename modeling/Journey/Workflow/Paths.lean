import Journey.Workflow.Basic

/-!
# Journey.Workflow.Paths -- which nodes lead to which

An edge leads from its source to its target, and a path is a chain of edges (`Leads`).  Edges whose
ends are no nodes count as well, and several edges between two nodes count as one.

`explore` follows edges from a list of starting points.  It uses every edge once: when a point is
visited, the edges that leave it are taken out and their targets are visited next.  A visit makes the
edges and the points still to be visited fewer by one in sum, so the search ends on every graph,
cyclic or not.  Main statements: exactly the points at the end of a path are visited
(`mem_explore_iff`); so a path is found exactly when there is one (`hasPath_iff`), and a cycle is
found exactly when some path of at least one edge ends where it began (`hasCycle_iff`).
-/

namespace Journey.Paths

set_option autoImplicit false

/-- A chain of edges from one point to another, empty if they are the same. -/
inductive Leads (edges : List Edge) : String → String → Prop where
  | here (a : String) : Leads edges a a
  | step {e : Edge} {b : String} : e ∈ edges → Leads edges e.target b → Leads edges e.source b

/-- The edges that do not leave a point. -/
def others (edges : List Edge) (a : String) : List Edge := edges.filter fun e => e.source != a

/-- The targets of the edges that leave a point. -/
def next (edges : List Edge) (a : String) : List String :=
  (Workflow.edgesFrom edges a).map (·.target)

theorem length_others_add_length_next (edges : List Edge) (a : String) :
    (others edges a).length + (next edges a).length = edges.length := by
  induction edges with
  | nil => rfl
  | cons e edges ih =>
    by_cases h : e.source = a <;>
      simp [others, next, Workflow.edgesFrom, h] at ih ⊢ <;> omega

/-- The points visited from the starting points on. -/
def explore (edges : List Edge) : List String → List String
  | [] => []
  | a :: todo => a :: explore (others edges a) (next edges a ++ todo)
termination_by todo => edges.length + todo.length
decreasing_by
  have := length_others_add_length_next edges a
  simp only [List.length_append, List.length_cons]
  omega

/-- Whether a path leads from one point to another. -/
def hasPath (edges : List Edge) (source target : String) : Bool :=
  (explore edges [source]).contains target

/-- Whether an edge between two points would close a loop. -/
def createsCycle (edges : List Edge) (source target : String) : Bool :=
  hasPath edges target source

/-- Whether some path of at least one edge ends where it began. -/
def hasCycle (edges : List Edge) : Bool :=
  edges.any fun e => hasPath edges e.target e.source

/-! ## Paths and searches -/

theorem Leads.mono {edges more : List Edge} (sub : ∀ e ∈ edges, e ∈ more) {a b : String}
    (h : Leads edges a b) : Leads more a b := by
  induction h with
  | here a => exact .here a
  | step mem _ ih => exact .step (sub _ mem) ih

theorem mem_others {edges : List Edge} {a : String} {e : Edge} :
    e ∈ others edges a ↔ e ∈ edges ∧ e.source ≠ a := by
  simp [others]

theorem mem_next {edges : List Edge} {a b : String} :
    b ∈ next edges a ↔ ∃ e ∈ edges, e.source = a ∧ e.target = b := by
  simp [next, Workflow.edgesFrom, and_assoc]

/-- A path either never leaves a point, or is a path that does not after some edge that leaves it. -/
theorem Leads.avoid {edges : List Edge} (a : String) {s t : String} (h : Leads edges s t) :
    Leads (others edges a) s t
      ∨ ∃ e ∈ edges, e.source = a ∧ Leads (others edges a) e.target t := by
  induction h with
  | here s => exact .inl (.here s)
  | @step e t mem _ ih =>
    rcases ih with avoids | later
    · by_cases leaves : e.source = a
      · exact .inr ⟨e, mem, leaves, avoids⟩
      · exact .inl (.step (mem_others.2 ⟨mem, leaves⟩) avoids)
    · exact .inr later

/-- A path whose edges never leave its start has no edge. -/
theorem Leads.eq_of_others {edges : List Edge} {a t : String} (h : Leads (others edges a) a t) :
    t = a := by
  generalize same : a = s at h
  cases h with
  | here => rfl
  | step mem _ => exact absurd same.symm (same ▸ (mem_others.1 mem).2)

/-- Exactly the ends of paths from the starting points are visited. -/
theorem mem_explore_iff {edges : List Edge} {todo : List String} {t : String} :
    t ∈ explore edges todo ↔ ∃ s ∈ todo, Leads edges s t := by
  induction edges, todo using explore.induct with
  | case1 edges => simp [explore]
  | case2 edges a todo ih =>
    rw [explore, List.mem_cons, ih]
    constructor
    · rintro (rfl | ⟨s, mem, found⟩)
      · exact ⟨t, List.mem_cons_self, .here t⟩
      · have path : Leads edges s t := found.mono fun e h => (mem_others.1 h).1
        rcases List.mem_append.1 mem with fromA | fromTodo
        · obtain ⟨e, edge, rfl, rfl⟩ := mem_next.1 fromA
          exact ⟨e.source, List.mem_cons_self, .step edge path⟩
        · exact ⟨s, List.mem_cons_of_mem _ fromTodo, path⟩
    · rintro ⟨s, mem, path⟩
      rcases path.avoid a with avoids | ⟨e, edge, leaves, later⟩
      · rcases List.mem_cons.1 mem with rfl | fromTodo
        · exact .inl avoids.eq_of_others
        · exact .inr ⟨s, List.mem_append_right _ fromTodo, avoids⟩
      · exact .inr ⟨e.target, List.mem_append_left _ (mem_next.2 ⟨e, edge, leaves, rfl⟩), later⟩

theorem hasPath_iff {edges : List Edge} {s t : String} :
    hasPath edges s t = true ↔ Leads edges s t := by
  simp [hasPath, mem_explore_iff]

theorem hasCycle_iff {edges : List Edge} :
    hasCycle edges = true ↔ ∃ e ∈ edges, Leads edges e.target e.source := by
  simp [hasCycle, hasPath_iff]

end Journey.Paths

namespace Journey.Workflow

/-- The points reached from the first trigger, each once; none without a trigger. -/
def reachable (w : Workflow) : List String :=
  match w.trigger? with
  | some t => (Paths.explore w.edges [t.id]).eraseDups
  | none => []

end Journey.Workflow
