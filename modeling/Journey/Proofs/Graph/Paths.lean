import Journey.Workflow.Paths

/-!
# Journey.Proofs.Graph.Paths -- paths and loops when edges are added, replaced or put together

Only the two ends of an edge matter to a path, so edges may be exchanged for others with the same
ends (`Leads.along`).  A path over one edge more either does without it or runs up to its source and
on from its target (`Leads.cross`); hence an edge closes a loop exactly when its target already led
to its source (`acyclic_concat_iff`), and edges that all lead up form none (`acyclic_of_lt`).  A path
that starts in a set which no edge leaves stays there (`Leads.within`), so two loop-free lists of edges
that share no point are loop-free together (`Acyclic.append`), and a renaming of points that keeps them
apart keeps a list loop-free (`Acyclic.rename`).  What a workflow reaches is what a path leads to from its
first trigger (`Workflow.mem_reachable_iff_leads`).
-/

namespace Journey.Paths

set_option autoImplicit false

variable {edges more : List Edge} {a b c : String}

theorem Leads.trans (first : Leads edges a b) (second : Leads edges b c) : Leads edges a c := by
  induction first with
  | here => exact second
  | step mem _ ih => exact .step mem (ih second)

/-- A path goes along edges with the same ends as well. -/
theorem Leads.along
    (ends : ∀ e ∈ edges, ∃ f ∈ more, f.source = e.source ∧ f.target = e.target)
    (h : Leads edges a b) : Leads more a b := by
  induction h with
  | here a => exact .here a
  | step mem _ ih =>
    obtain ⟨f, memF, source, target⟩ := ends _ mem
    rw [← source]
    exact .step memF (target ▸ ih)

/-- A path over one edge more does without it, or is cut in two by its last use. -/
theorem Leads.cross {e : Edge} (h : Leads (edges ++ [e]) a b) :
    Leads edges a b ∨ (Leads edges a e.source ∧ Leads edges e.target b) := by
  induction h with
  | here a => exact .inl (.here a)
  | @step f b mem _ ih =>
    rcases List.mem_append.1 mem with old | new
    · rcases ih with direct | ⟨before, after⟩
      · exact .inl (.step old direct)
      · exact .inr ⟨.step old before, after⟩
    · obtain rfl := List.mem_singleton.1 new
      rcases ih with direct | ⟨-, after⟩
      · exact .inr ⟨.here _, direct⟩
      · exact .inr ⟨.here _, after⟩

/-- A path from within a set that no edge leaves stays in the set, and uses the edges there. -/
theorem Leads.within (inside : String → Prop)
    (closed : ∀ e ∈ edges, inside e.source → e ∈ more ∧ inside e.target)
    (h : Leads edges a b) (start : inside a) : Leads more a b ∧ inside b := by
  induction h with
  | here a => exact ⟨.here a, start⟩
  | step mem _ ih =>
    obtain ⟨kept, onward⟩ := closed _ mem start
    obtain ⟨path, last⟩ := ih onward
    exact ⟨.step kept path, last⟩

/-- No path of at least one edge ends where it began. -/
def Acyclic (edges : List Edge) : Prop := ∀ e ∈ edges, ¬ Leads edges e.target e.source

theorem hasCycle_eq_false_iff : hasCycle edges = false ↔ Acyclic edges := by
  rw [← Bool.not_eq_true, hasCycle_iff]
  simp [Acyclic]

theorem acyclic_nil : Acyclic [] := by
  intro e mem
  cases mem

theorem Acyclic.along (h : Acyclic more)
    (ends : ∀ e ∈ edges, ∃ f ∈ more, f.source = e.source ∧ f.target = e.target) :
    Acyclic edges := by
  intro e mem path
  obtain ⟨f, memF, source, target⟩ := ends e mem
  apply h f memF
  rw [source, target]
  exact path.along ends

theorem Acyclic.subset (h : Acyclic more) (sub : ∀ e ∈ edges, e ∈ more) : Acyclic edges :=
  h.along fun e mem => ⟨e, sub e mem, rfl, rfl⟩

/-- A path over edges that all lead up does not lead down. -/
theorem Leads.le_of_lt {height : String → Nat} (up : ∀ e ∈ edges, height e.source < height e.target)
    (h : Leads edges a b) : height a ≤ height b := by
  induction h with
  | here => exact Nat.le_refl _
  | step mem _ ih => exact Nat.le_trans (Nat.le_of_lt (up _ mem)) ih

/-- Edges that all lead up form no loop. -/
theorem acyclic_of_lt (height : String → Nat) (up : ∀ e ∈ edges, height e.source < height e.target) :
    Acyclic edges := by
  intro e mem path
  exact absurd (up e mem) (Nat.not_lt.2 (path.le_of_lt up))

/-- An edge closes a loop exactly when its target already led to its source. -/
theorem acyclic_concat_iff {e : Edge} :
    Acyclic (edges ++ [e]) ↔ Acyclic edges ∧ ¬ Leads edges e.target e.source := by
  constructor
  · intro h
    refine ⟨h.subset fun f mem => List.mem_append_left _ mem, fun path => ?_⟩
    have wider : Leads (edges ++ [e]) e.target e.source :=
      path.mono fun f mem => List.mem_append_left _ mem
    exact h e (by simp) wider
  · rintro ⟨h, noReturn⟩ f mem path
    rcases List.mem_append.1 mem with old | new
    · rcases path.cross with direct | ⟨before, after⟩
      · exact h f old direct
      · exact noReturn (after.trans (.step old before))
    · obtain rfl := List.mem_singleton.1 new
      rcases path.cross with direct | ⟨-, after⟩
      · exact noReturn direct
      · exact noReturn after

/-- Two loop-free lists of edges without a common point are loop-free together. -/
theorem Acyclic.append (inside : String → Prop) (h : Acyclic edges) (k : Acyclic more)
    (left : ∀ e ∈ edges, inside e.source ∧ inside e.target)
    (right : ∀ e ∈ more, ¬ inside e.source ∧ ¬ inside e.target) : Acyclic (edges ++ more) := by
  intro e mem path
  rcases List.mem_append.1 mem with old | new
  · have closed : ∀ f ∈ edges ++ more, inside f.source → f ∈ edges ∧ inside f.target := by
      intro f memF start
      rcases List.mem_append.1 memF with inLeft | inRight
      · exact ⟨inLeft, (left f inLeft).2⟩
      · exact absurd start (right f inRight).1
    exact h e old (path.within inside closed (left e old).2).1
  · have closed : ∀ f ∈ edges ++ more, ¬ inside f.source → f ∈ more ∧ ¬ inside f.target := by
      intro f memF start
      rcases List.mem_append.1 memF with inLeft | inRight
      · exact absurd (left f inLeft).1 start
      · exact ⟨inRight, (right f inRight).2⟩
    exact k e new (path.within (fun id => ¬ inside id) closed (right e new).2).1

/-- Edges whose ends are those of loop-free edges under other names are loop-free, as long as a new
name stands for one point. -/
theorem Acyclic.rename (name : String → String → Prop)
    (apart : ∀ x y z, name x z → name y z → x = y) (h : Acyclic edges)
    (renamed : ∀ e ∈ more, ∃ f ∈ edges, name f.source e.source ∧ name f.target e.target) :
    Acyclic more := by
  have back : ∀ x y, Leads more x y → ∀ x', name x' x → ∀ y', name y' y → Leads edges x' y' := by
    intro x y path
    induction path with
    | here x =>
      intro x' nameX y' nameY
      obtain rfl := apart _ _ _ nameX nameY
      exact .here _
    | step mem _ ih =>
      intro x' nameX y' nameY
      obtain ⟨f, memF, source, target⟩ := renamed _ mem
      obtain rfl := apart _ _ _ nameX source
      exact .step memF (ih _ target _ nameY)
  intro e mem path
  obtain ⟨f, memF, source, target⟩ := renamed e mem
  exact h f memF (back _ _ path _ target _ source)

end Journey.Paths

namespace Journey.Workflow

variable {w : Workflow} {id : String}

theorem mem_reachable_iff_leads :
    id ∈ w.reachable ↔ ∃ t, w.trigger? = some t ∧ Paths.Leads w.edges t.id id := by
  unfold reachable
  cases w.trigger? with
  | none => simp
  | some t => simp [Paths.mem_explore_iff]

theorem mem_reachable_iff {t : Node} (trigger : w.trigger? = some t) :
    id ∈ w.reachable ↔ Paths.Leads w.edges t.id id := by
  simp [mem_reachable_iff_leads, trigger]

end Journey.Workflow
