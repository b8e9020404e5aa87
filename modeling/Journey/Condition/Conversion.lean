import Journey.Condition.Handle
import Journey.Document.Display

/-!
# Journey.Condition.Conversion -- digits that are read and written on the way to a result

What is done with a workflow turns digits into numbers, at else-if handles, and numbers into digits,
where a document is shown as a text or a clause is numbered.  Such a conversion fails when there are
too many digits (`Conversion.failure?`), and the first one that fails ends what was being done.

So a function that converts digits is given in two parts: the conversions it makes in their order,
and its result when they all succeed (`Conversion.after`).  Main statement: there is a result exactly
when every conversion succeeds (`after_eq_ok_iff`).
-/

namespace Journey

set_option autoImplicit false

/-- What follows a result is there exactly when both are. -/
theorem bind_eq_ok_iff {ε α β : Type} {x : Except ε α} {f : α → Except ε β} {b : β} :
    (x >>= f) = .ok b ↔ ∃ a, x = .ok a ∧ f a = .ok b := by
  cases x with
  | error failure => simp [bind, Except.bind]
  | ok a => simp [bind, Except.bind]

/-- How a failure is told does not change what there is without one. -/
theorem mapError_eq_ok_iff {ε δ α : Type} {x : Except ε α} {f : ε → δ} {a : α} :
    x.mapError f = .ok a ↔ x = .ok a := by
  cases x with
  | error failure => exact iff_of_false (fun h => by cases h) (fun h => by cases h)
  | ok b => exact (Except.ok.injEq b a).to_iff.trans (Except.ok.injEq b a).to_iff.symm

/-- Digits that become a number, or a number that becomes digits. -/
inductive Conversion where
  /-- The number of an else-if handle is read; other handles have none. -/
  | handle (door : String)
  /-- A document is shown as a text. -/
  | text (d : Document)
  /-- A number is written. -/
  | count (n : Nat)

namespace Conversion

/-- Why a conversion fails, nothing if it succeeds. -/
def failure? : Conversion → Option Overlong
  | .handle door =>
      ((Handle.elseIf? door).filter Decimal.isLong).map fun n => .read (Decimal.digitCount n)
  | .text d => if d.hasLong then some .written else none
  | .count n => if Decimal.isLong n then some .written else none

/-- Why the first of the conversions that fail fails. -/
def firstFailure? (cs : List Conversion) : Option Overlong := cs.findSome? failure?

/-- Whether every conversion succeeds. -/
def Succeed (cs : List Conversion) : Prop := ∀ c ∈ cs, c.failure? = none

/-- A result that is there once the conversions have succeeded. -/
def after {α : Type} (cs : List Conversion) (a : α) : Except Overlong α :=
  match firstFailure? cs with
  | none => .ok a
  | some o => .error o

theorem firstFailure?_eq_none_iff {cs : List Conversion} :
    firstFailure? cs = none ↔ Succeed cs :=
  List.findSome?_eq_none_iff

instance (cs : List Conversion) : Decidable (Succeed cs) :=
  decidable_of_iff _ firstFailure?_eq_none_iff

/-- There is a result exactly when every conversion succeeds. -/
theorem after_eq_ok_iff {α : Type} {cs : List Conversion} {a b : α} :
    after cs a = .ok b ↔ Succeed cs ∧ a = b := by
  rw [← firstFailure?_eq_none_iff, after]
  cases firstFailure? cs <;> simp

theorem exists_after_eq_ok_iff {α : Type} {cs : List Conversion} {a : α} :
    (∃ b, after cs a = .ok b) ↔ Succeed cs := by
  simp [after_eq_ok_iff]

theorem after_of_succeed {α : Type} {cs : List Conversion} (h : Succeed cs) (a : α) :
    after cs a = .ok a :=
  after_eq_ok_iff.2 ⟨h, rfl⟩

theorem map_after {α β : Type} (f : α → β) (cs : List Conversion) (a : α) :
    (after cs a).map f = after cs (f a) := by
  unfold after
  split <;> rfl

/-- Conversions that succeed are not seen in why the first of more fails. -/
theorem firstFailure?_append_of_succeed {cs : List Conversion} (h : Succeed cs) (ds : List Conversion) :
    firstFailure? (cs ++ ds) = firstFailure? ds := by
  rw [firstFailure?, List.findSome?_append, ← firstFailure?, firstFailure?_eq_none_iff.2 h]
  rfl

theorem firstFailure?_flatMap_congr {α : Type} {as : List α} {f g : α → List Conversion}
    (same : ∀ a ∈ as, firstFailure? (f a) = firstFailure? (g a)) :
    firstFailure? (as.flatMap f) = firstFailure? (as.flatMap g) := by
  induction as with
  | nil => rfl
  | cons a as ih =>
    obtain ⟨first, rest⟩ := List.forall_mem_cons.1 same
    simp only [firstFailure?] at first rest ih ⊢
    rw [List.flatMap_cons, List.flatMap_cons, List.findSome?_append, List.findSome?_append, first, ih rest]

@[simp] theorem succeed_nil : Succeed [] := by simp [Succeed]

@[simp] theorem succeed_cons {c : Conversion} {cs : List Conversion} :
    Succeed (c :: cs) ↔ c.failure? = none ∧ Succeed cs := by
  simp [Succeed]

@[simp] theorem succeed_append {cs ds : List Conversion} :
    Succeed (cs ++ ds) ↔ Succeed cs ∧ Succeed ds := by
  simp only [Succeed, List.mem_append, or_imp, forall_and]

theorem succeed_flatMap {α : Type} {as : List α} {f : α → List Conversion} :
    Succeed (as.flatMap f) ↔ ∀ a ∈ as, Succeed (f a) := by
  simp only [Succeed, List.mem_flatMap]
  exact ⟨fun h a mem c found => h c ⟨a, mem, found⟩, fun h c ⟨a, mem, found⟩ => h a mem c found⟩

theorem succeed_map {α : Type} {as : List α} {f : α → Conversion} :
    Succeed (as.map f) ↔ ∀ a ∈ as, (f a).failure? = none := by
  simp [Succeed]

@[simp] theorem failure?_text_eq_none {d : Document} :
    (Conversion.text d).failure? = none ↔ d.hasLong = false := by
  simp [failure?]

@[simp] theorem failure?_count_eq_none {n : Nat} :
    (Conversion.count n).failure? = none ↔ n < Decimal.leastLong := by
  rw [← Decimal.isLong_eq_false_iff]
  simp [failure?]

/-- The number of a handle is read exactly when it has not too many digits. -/
theorem failure?_handle_eq_none {door : String} :
    (Conversion.handle door).failure? = none ↔
      ∀ n, Handle.elseIf? door = some n → n < Decimal.leastLong := by
  simp only [← Decimal.isLong_eq_false_iff, failure?]
  cases Handle.elseIf? door <;> simp

end Conversion

namespace Handle

/-- The number of an else-if handle, which is read if it has not too many digits. -/
def number (handle : String) : Except Overlong (Option Nat) :=
  Conversion.after [.handle handle] (elseIf? handle)

/-- The label of a handle, for which its number is read. -/
def tryLabel (handle : String) (position : Nat) : Except Overlong String :=
  Conversion.after [.handle handle] (label handle position)

end Handle

end Journey
