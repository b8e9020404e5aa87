/-!
# Journey.Editor.Timeline -- a value, what it was, and what it can be again

A timeline holds a value between the values before it and the values that were taken back.  Recording
a new value puts the present one on the past and gives up the future; going back and going forth move
along.  Past and future are listed from the present outwards, and each is cut off at a limit.  A
value can also be put in the place of the present one without leaving a trace.

Main statements: going back undoes a record (`back?_record`), going forth undoes going back and going
back undoes going forth (`forth?_of_back?`, `back?_of_forth?`), and past and future together stay
within the limit (`Within.record`, `Within.back`, `Within.forth`).
-/

namespace Journey

set_option autoImplicit false

/-- A value with those before it and those that were taken back, the nearest first. -/
structure Timeline (α : Type) where
  present : α
  past : List α := []
  future : List α := []

namespace Timeline

variable {α : Type}

/-- A new value after the present one. -/
def record (limit : Nat) (t : Timeline α) (a : α) : Timeline α :=
  { present := a, past := (t.present :: t.past).take limit }

/-- Another value in the place of the present one. -/
def replace (t : Timeline α) (a : α) : Timeline α := { t with present := a }

/-- The present value alone. -/
def forget (t : Timeline α) : Timeline α := { present := t.present }

/-- The value before the present one is made present. -/
def back? (limit : Nat) (t : Timeline α) : Option (Timeline α) :=
  match t.past with
  | [] => none
  | a :: past => some { present := a, past, future := (t.present :: t.future).take limit }

/-- The value that was taken back last is made present. -/
def forth? (limit : Nat) (t : Timeline α) : Option (Timeline α) :=
  match t.future with
  | [] => none
  | a :: future => some { present := a, past := (t.present :: t.past).take limit, future }

/-- Past and future together have no more values than the limit. -/
def Within (limit : Nat) (t : Timeline α) : Prop := t.past.length + t.future.length ≤ limit

variable {limit : Nat} {t u : Timeline α}

theorem back?_record (h : 1 ≤ limit) (a : α) :
    (t.record limit a).back? limit
      = some { present := t.present, past := t.past.take (limit - 1), future := [a] } := by
  obtain ⟨k, rfl⟩ := Nat.exists_eq_add_of_le' h
  simp [record, back?]

theorem forth?_of_back? (within : t.Within limit) (h : t.back? limit = some u) :
    u.forth? limit = some t := by
  obtain ⟨present, past, future⟩ := t
  cases past with
  | nil => simp [back?] at h
  | cons a past =>
    simp only [back?, Option.some.injEq] at h
    subst h
    simp only [Within, List.length_cons] at within
    have all : (present :: future).take limit = present :: future :=
      List.take_of_length_le (by simp only [List.length_cons]; omega)
    have rest : (a :: past).take limit = a :: past :=
      List.take_of_length_le (by simp only [List.length_cons]; omega)
    simp [forth?, all, rest]

theorem back?_of_forth? (within : t.Within limit) (h : t.forth? limit = some u) :
    u.back? limit = some t := by
  obtain ⟨present, past, future⟩ := t
  cases future with
  | nil => simp [forth?] at h
  | cons a future =>
    simp only [forth?, Option.some.injEq] at h
    subst h
    simp only [Within, List.length_cons] at within
    have all : (present :: past).take limit = present :: past :=
      List.take_of_length_le (by simp only [List.length_cons]; omega)
    have rest : (a :: future).take limit = a :: future :=
      List.take_of_length_le (by simp only [List.length_cons]; omega)
    simp [back?, all, rest]

theorem Within.record (a : α) : (t.record limit a).Within limit := by
  simp only [Within, Timeline.record, List.length_take, List.length_cons, List.length_nil]
  omega

theorem Within.replace (within : t.Within limit) (a : α) : (t.replace a).Within limit := within

theorem Within.forget : t.forget.Within limit := by simp [Within, Timeline.forget]

theorem Within.back (within : t.Within limit) (h : t.back? limit = some u) : u.Within limit := by
  obtain ⟨present, past, future⟩ := t
  cases past with
  | nil => simp [back?] at h
  | cons a past =>
    simp only [back?, Option.some.injEq] at h
    subst h
    simp only [Within, List.length_take, List.length_cons] at within ⊢
    omega

theorem Within.forth (within : t.Within limit) (h : t.forth? limit = some u) : u.Within limit := by
  obtain ⟨present, past, future⟩ := t
  cases future with
  | nil => simp [forth?] at h
  | cons a future =>
    simp only [forth?, Option.some.injEq] at h
    subst h
    simp only [Within, List.length_take, List.length_cons] at within ⊢
    omega

end Timeline

end Journey
