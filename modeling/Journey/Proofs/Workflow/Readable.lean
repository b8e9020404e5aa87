import Journey.Proofs.Condition.Legible
import Journey.Workflow.Restored

/-!
# Journey.Proofs.Workflow.Readable -- which documents are restored

A document is restored once the texts it is asked for can be shown and the settings of its conditions can be
read (`Readable`).  Of an item of the node list these are its kind, its identifier and its title; of an item of
the edge list its ends and its identifier, and its handles and its label if both ends are nodes.  Nothing else is
converted (`tryRestore_eq_ok_iff`): other texts may be missing and other settings may have any faults.

The document `unreadable` has one node, a condition that asks for a handle with too many digits.
-/

namespace Journey

set_option autoImplicit false

namespace Workflow

/-- The kind that an item names, a pause if it names none. -/
def statedKind (item : Document) : NodeKind :=
  ((Fields.getD item.fields "kind").nameIn NodeKind.named?).getD .wait

/-- An item whose node can be made. -/
structure ReadableNode (item : Document) : Prop where
  texts : ∀ key ∈ ["kind", "id", "title"], (Fields.getD item.fields key).hasLong = false
  settings : statedKind item = .condition → Condition.Legible (Fields.getD item.fields "config")

/-- An item whose edge can be made, or left out if its ends are no nodes. -/
structure ReadableEdge (nodes : List Node) (item : Document) : Prop where
  texts : ∀ key ∈ ["source", "target", "id"], (Fields.getD item.fields key).hasLong = false
  branch : (indexed? nodes (Fields.getD item.fields "source").trimmed).isSome = true →
    (indexed? nodes (Fields.getD item.fields "target").trimmed).isSome = true →
      (Fields.getEither item.fields "sourceHandle" "source_handle").hasLong = false
        ∧ (Fields.getEither item.fields "targetHandle" "target_handle").hasLong = false
        ∧ (Fields.getD item.fields "label").hasLong = false

/-- A document of which a workflow can be made.  Without nodes its edges do not matter. -/
structure Readable (d : Document) : Prop where
  texts : ∀ key ∈ ["name", "id"], (Fields.getD d.fields key).hasLong = false
  nodes : ∀ item ∈ (Fields.getD d.fields "nodes").items, ReadableNode item
  edges : (Fields.getD d.fields "nodes").items ≠ [] → ∀ item ∈ (Fields.getD d.fields "edges").items,
    ReadableEdge (restoreNodes 0 [] (Fields.getD d.fields "nodes").items) item

variable {d item : Document} {nodes : List Node}

theorem succeed_nodeConversions_iff : Conversion.Succeed (nodeConversions item) ↔ ReadableNode item := by
  have settings : Conversion.Succeed (Config.salvageConversions (statedKind item) (Fields.getD item.fields "config"))
      ↔ (statedKind item = .condition → Condition.Legible (Fields.getD item.fields "config")) := by
    unfold Config.salvageConversions
    split <;> simp_all [Condition.Legible]
  rw [nodeConversions, Conversion.succeed_append, ← statedKind, settings]
  constructor
  · rintro ⟨texts, settings⟩
    exact ⟨by simpa using texts, settings⟩
  · intro h
    exact ⟨by simpa using h.texts, h.settings⟩

theorem succeed_edgeConversions_iff :
    Conversion.Succeed (edgeConversions nodes item) ↔ ReadableEdge nodes item := by
  have branch : Conversion.Succeed (if (indexed? nodes (Fields.getD item.fields "source").trimmed).isSome
        && (indexed? nodes (Fields.getD item.fields "target").trimmed).isSome then
          [.text (Fields.getEither item.fields "sourceHandle" "source_handle"),
           .text (Fields.getEither item.fields "targetHandle" "target_handle"),
           .text (Fields.getD item.fields "label")] else [])
      ↔ ((indexed? nodes (Fields.getD item.fields "source").trimmed).isSome = true →
        (indexed? nodes (Fields.getD item.fields "target").trimmed).isSome = true →
          (Fields.getEither item.fields "sourceHandle" "source_handle").hasLong = false
            ∧ (Fields.getEither item.fields "targetHandle" "target_handle").hasLong = false
            ∧ (Fields.getD item.fields "label").hasLong = false) := by
    rw [← and_imp, ← Bool.and_eq_true]
    split <;> simp_all
  rw [edgeConversions, Conversion.succeed_append, Conversion.succeed_append, branch]
  constructor
  · rintro ⟨⟨ends, branch⟩, id⟩
    exact ⟨by simp_all, branch⟩
  · intro h
    have texts := h.texts
    simp only [List.forall_mem_cons] at texts
    exact ⟨⟨by simp [texts], h.branch⟩, by simp [texts]⟩

theorem succeed_restoreConversions_iff : Conversion.Succeed (restoreConversions d) ↔ Readable d := by
  have edges : Conversion.Succeed ((if (Fields.getD d.fields "nodes").items.isEmpty then []
        else (Fields.getD d.fields "edges").items).flatMap
          (edgeConversions (restoreNodes 0 [] (Fields.getD d.fields "nodes").items)))
      ↔ ((Fields.getD d.fields "nodes").items ≠ [] → ∀ item ∈ (Fields.getD d.fields "edges").items,
        ReadableEdge (restoreNodes 0 [] (Fields.getD d.fields "nodes").items) item) := by
    simp only [Conversion.succeed_flatMap, succeed_edgeConversions_iff]
    split <;> simp_all
  rw [restoreConversions, Conversion.succeed_append, Conversion.succeed_append, edges,
    Conversion.succeed_flatMap]
  simp only [succeed_nodeConversions_iff]
  exact ⟨fun ⟨⟨nodes, edges⟩, texts⟩ => ⟨by simpa using texts, nodes, edges⟩,
    fun h => ⟨⟨h.nodes, h.edges⟩, by simpa using h.texts⟩⟩

instance (d : Document) : Decidable (Readable d) := decidable_of_iff _ succeed_restoreConversions_iff

/-- A document is restored exactly if it can be read. -/
theorem tryRestore_eq_ok_iff {fallback : String} {m : Fresh Workflow} :
    tryRestore d fallback = .ok m ↔ Readable d ∧ restore d fallback = m := by
  rw [tryRestore, Conversion.after_eq_ok_iff, succeed_restoreConversions_iff]

theorem exists_tryRestore_iff {fallback : String} :
    (∃ m, tryRestore d fallback = .ok m) ↔ Readable d :=
  Conversion.exists_after_eq_ok_iff.trans succeed_restoreConversions_iff

/-- A document with one node, a condition whose second clause asks for a handle that cannot be read. -/
def unreadable : Document :=
  .object
    [("nodes", .list
      [.object [("kind", .text "condition"),
        ("config", .object (ConditionConfig.overlong.row Key.written .kept))]])]

theorem not_readable_unreadable : ¬ Readable unreadable :=
  fun h => ConditionConfig.not_succeed_overlong
    ((h.nodes _ List.mem_cons_self).settings (by decide +kernel))

end Workflow

end Journey
