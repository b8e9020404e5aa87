import Journey.Proofs.Graph.Paths
import Journey.Workflow.Connection
import Mathlib.Data.List.Nodup

/-!
# Journey.Proofs.Graph.Rules -- the rules for edges, said of all edges at once

The rules for edges look at nodes only through their settings, and at an edge only through its ends
and its door.  `settings?` is the first view; `Edge.Fits` says that an edge may stand between its
nodes, `Edge.Apart` that two edges may stand beside each other, and `Sound` that all edges do and
form no loop.  So a change that leaves these views alone keeps soundness (`Sound.congr`), fewer edges
stay sound (`Sound.sublist`), and one edge more is sound exactly when it fits, stands apart from every
other, and closes no loop (`sound_concat_iff`).
-/

namespace Journey

set_option autoImplicit false

namespace Workflow

/-! ## The settings behind an identifier -/

/-- The settings of the node with an identifier. -/
def settings? (nodes : List Node) (id : String) : Option Config :=
  (indexed? nodes id).map (·.config)

theorem mem_of_indexed? {nodes : List Node} {id : String} {n : Node}
    (found : indexed? nodes id = some n) : n ∈ nodes ∧ n.id = id := by
  constructor
  · simpa using List.mem_of_find?_eq_some found
  · simpa using List.find?_some found

theorem isSome_indexed? {nodes : List Node} {id : String} :
    (indexed? nodes id).isSome = true ↔ id ∈ nodes.map (·.id) := by
  simp [indexed?, List.find?_isSome]

/-- Where identifiers are distinct, a node is found under its own. -/
theorem indexed?_eq_some_iff {nodes : List Node} (distinct : (nodes.map (·.id)).Nodup)
    {id : String} {n : Node} : indexed? nodes id = some n ↔ n ∈ nodes ∧ n.id = id := by
  constructor
  · exact mem_of_indexed?
  · rintro ⟨mem, rfl⟩
    have there : (indexed? nodes n.id).isSome = true :=
      isSome_indexed?.2 (List.mem_map_of_mem mem)
    obtain ⟨m, found⟩ := Option.isSome_iff_exists.1 there
    obtain ⟨memM, same⟩ := mem_of_indexed? found
    rw [found, List.inj_on_of_nodup_map distinct memM mem same]

theorem settings?_eq_some_iff {nodes : List Node} (distinct : (nodes.map (·.id)).Nodup)
    {id : String} {c : Config} :
    settings? nodes id = some c ↔ ∃ n ∈ nodes, n.id = id ∧ n.config = c := by
  simp [settings?, indexed?_eq_some_iff distinct, and_assoc]

theorem settings?_of_indexed? {nodes : List Node} {id : String} {n : Node}
    (found : indexed? nodes id = some n) : settings? nodes id = some n.config := by
  rw [settings?, found, Option.map_some]

theorem isSome_settings? {nodes : List Node} {id : String} :
    (settings? nodes id).isSome = true ↔ id ∈ nodes.map (·.id) := by
  rw [settings?, Option.isSome_map, isSome_indexed?]

theorem settings?_eq_none_iff {nodes : List Node} {id : String} :
    settings? nodes id = none ↔ id ∉ nodes.map (·.id) := by
  rw [← isSome_settings?, Bool.not_eq_true, Option.isSome_eq_false_iff, Option.isNone_iff_eq_none]

end Workflow

/-! ## What the rules say -/

/-- Whether edges may leave a block with the settings by a door. -/
def Config.Offers (c : Config) (door : String) : Prop :=
  match c with
  | .condition c => Condition.accepts c.canonical door = true
  | .split _ => door ∈ splitHandles
  | _ => True

/-- An edge may stand between the nodes at its ends: it leaves no exit, enters no trigger, does not
return to its own node, and takes a door that its source has. -/
def Edge.Fits (at? : String → Option Config) (e : Edge) : Prop :=
  ∃ s t, at? e.source = some s ∧ at? e.target = some t ∧ s.kind ≠ .exit ∧ t.kind ≠ .trigger
    ∧ e.source ≠ e.target ∧ s.Offers e.door

/-- Two edges are not the same connection, and share no door of a block with branches. -/
structure Edge.LeaveApart (at? : String → Option Config) (e f : Edge) : Prop where
  connections : e.source = f.source → e.target = f.target → e.door ≠ f.door
  doors : e.source = f.source → e.door = f.door →
    ∀ c, at? e.source = some c → Workflow.branches c.kind = false

/-- Two edges may stand beside each other: they leave apart, and enter no node together but an
exit. -/
structure Edge.Apart (at? : String → Option Config) (e f : Edge) : Prop
    extends Edge.LeaveApart at? e f where
  inputs : e.target = f.target → ∀ c, at? e.target = some c → c.kind = .exit

namespace Workflow

/-- Every edge fits, every two stand apart, and they form no loop. -/
structure Sound (at? : String → Option Config) (edges : List Edge) : Prop where
  fits : ∀ e ∈ edges, e.Fits at?
  apart : edges.Pairwise (Edge.Apart at?)
  acyclic : Paths.Acyclic edges

end Workflow

/-! ## Other nodes, fewer edges, one edge more -/

variable {at? look? : String → Option Config} {edges : List Edge} {e f : Edge}

theorem Edge.fits_iff {s t : Config} (source : at? e.source = some s) (target : at? e.target = some t) :
    e.Fits at? ↔
      s.kind ≠ .exit ∧ t.kind ≠ .trigger ∧ e.source ≠ e.target ∧ s.Offers e.door := by
  simp [Edge.Fits, source, target]

theorem Edge.leaveApart_iff {s : Config} (source : at? e.source = some s) :
    f.LeaveApart at? e ↔
      ¬ (f.source = e.source ∧ f.target = e.target ∧ f.door = e.door)
        ∧ (f.source = e.source → f.door = e.door → Workflow.branches s.kind = false) := by
  constructor
  · intro h
    refine ⟨fun ⟨sameSource, sameTarget, sameDoor⟩ => h.connections sameSource sameTarget sameDoor, ?_⟩
    intro sameSource sameDoor
    exact h.doors sameSource sameDoor s (sameSource ▸ source)
  · rintro ⟨connections, doors⟩
    refine ⟨fun sameSource sameTarget sameDoor => connections ⟨sameSource, sameTarget, sameDoor⟩, ?_⟩
    intro sameSource sameDoor c found
    rw [sameSource, source, Option.some.injEq] at found
    exact found ▸ doors sameSource sameDoor

theorem Edge.Fits.source_isSome (h : e.Fits at?) : (at? e.source).isSome = true := by
  obtain ⟨s, _, source, -⟩ := h
  rw [source]
  rfl

theorem Edge.Fits.target_isSome (h : e.Fits at?) : (at? e.target).isSome = true := by
  obtain ⟨_, t, -, target, -⟩ := h
  rw [target]
  rfl

theorem Edge.Fits.congr (h : e.Fits at?) (source : look? e.source = at? e.source)
    (target : look? e.target = at? e.target) : e.Fits look? := by
  obtain ⟨s, t, atSource, atTarget, rest⟩ := h
  exact ⟨s, t, source.trans atSource, target.trans atTarget, rest⟩

theorem Edge.Apart.congr (h : e.Apart at? f) (source : look? e.source = at? e.source)
    (target : look? e.target = at? e.target) : e.Apart look? f where
  connections := h.connections
  doors sameSource sameDoor c found := h.doors sameSource sameDoor c (source ▸ found)
  inputs sameTarget c found := h.inputs sameTarget c (target ▸ found)

namespace Workflow

theorem sound_nil : Sound at? [] := ⟨by simp, .nil, Paths.acyclic_nil⟩

/-- Only the settings at the ends of the edges matter. -/
theorem Sound.congr (h : Sound at? edges)
    (ends : ∀ e ∈ edges, look? e.source = at? e.source ∧ look? e.target = at? e.target) :
    Sound look? edges where
  fits e mem := (h.fits e mem).congr (ends e mem).1 (ends e mem).2
  apart := h.apart.imp_of_mem fun {e _} mem _ apart => apart.congr (ends e mem).1 (ends e mem).2
  acyclic := h.acyclic

theorem Sound.sublist {fewer : List Edge} (h : Sound at? edges) (sub : fewer.Sublist edges) :
    Sound at? fewer where
  fits e mem := h.fits e (sub.subset mem)
  apart := h.apart.sublist sub
  acyclic := h.acyclic.subset fun _ mem => sub.subset mem

/-- One edge more is sound exactly when it fits, stands apart from the others and closes no loop. -/
theorem sound_concat_iff :
    Sound at? (edges ++ [e]) ↔
      Sound at? edges ∧ e.Fits at? ∧ (∀ f ∈ edges, f.Apart at? e)
        ∧ ¬ Paths.Leads edges e.target e.source := by
  constructor
  · intro h
    obtain ⟨acyclic, noReturn⟩ := Paths.acyclic_concat_iff.1 h.acyclic
    obtain ⟨apart, -, across⟩ := List.pairwise_append.1 h.apart
    refine ⟨⟨fun f mem => h.fits f (List.mem_append_left _ mem), apart, acyclic⟩,
      h.fits e (by simp), fun f mem => across f mem e (by simp), noReturn⟩
  · rintro ⟨h, fits, apart, noReturn⟩
    refine ⟨fun f mem => ?_, ?_, Paths.acyclic_concat_iff.2 ⟨h.acyclic, noReturn⟩⟩
    · rcases List.mem_append.1 mem with old | new
      · exact h.fits f old
      · rwa [List.mem_singleton.1 new]
    · refine List.pairwise_append.2 ⟨h.apart, List.pairwise_singleton _ _, fun f mem g new => ?_⟩
      rw [List.mem_singleton.1 new]
      exact apart f mem

end Workflow

end Journey
