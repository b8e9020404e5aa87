import Journey.Decimal.Layout
import Journey.Text.Blank
import Mathlib.Data.List.DropRight

/-!
# Journey.Proofs.Text.Trimmed -- texts without blanks around them

A text is trimmed when trimming leaves it as it is, which is the case exactly if neither of its ends is
blank (`trimmed_iff`).  What was trimmed is trimmed (`trimmed_trim`), and so is what is put together of
trimmed texts (`Trimmed.append`): identifiers, handles and labels are made in this way.
-/

namespace Journey.Text

set_option autoImplicit false

variable {p : Char → Bool} {cs ds : List Char} {s t : String}

/-- Neither end is in the set. -/
structure Bare (p : Char → Bool) (cs : List Char) : Prop where
  first : ∀ c, cs.head? = some c → p c = false
  last : ∀ c, cs.getLast? = some c → p c = false

theorem head?_dropWhile_false {c : Char} (h : (cs.dropWhile p).head? = some c) : p c = false := by
  have stopped := List.head?_dropWhile_not p cs
  rw [h] at stopped
  simpa using stopped

/-- After trimming neither end is in the set. -/
theorem bare_trimBy (p : Char → Bool) (cs : List Char) : Bare p (trimBy p cs) where
  first := by
    intro c first
    -- what is dropped from the right leaves a prefix, with the same first character
    obtain ⟨dropped, whole⟩ := List.rdropWhile_prefix p (cs.dropWhile p)
    have kept : (cs.dropWhile p).head? = some c := by
      change (List.rdropWhile p (cs.dropWhile p)).head? = some c at first
      rw [← whole, List.head?_append, first]
      rfl
    exact head?_dropWhile_false kept
  last := by
    intro c last
    rw [trimBy, List.getLast?_reverse] at last
    exact head?_dropWhile_false last

theorem Bare.append (left : Bare p cs) (right : Bare p ds) (nonempty : cs ≠ []) (more : ds ≠ []) :
    Bare p (cs ++ ds) where
  first := by
    rw [List.head?_append_of_ne_nil _ nonempty]
    exact left.first
  last := by
    rw [List.getLast?_append_of_ne_nil _ more]
    exact right.last

/-- A text without blanks around it. -/
def Trimmed (s : String) : Prop := trim s = s

instance (s : String) : Decidable (Trimmed s) := inferInstanceAs (Decidable (trim s = s))

theorem trimmed_iff : Trimmed s ↔ Bare isBlank s.toList := by
  constructor
  · intro trimmed
    have chars : trimBy isBlank s.toList = s.toList := by
      rw [← String.toList_ofList (l := trimBy isBlank s.toList)]
      exact congrArg String.toList trimmed
    rw [← chars]
    exact bare_trimBy _ _
  · intro bare
    rw [Trimmed, trim, trimBy_eq_self bare.first bare.last, String.ofList_toList]

theorem trimmed_trim (s : String) : Trimmed (trim s) := by
  rw [trimmed_iff, trim, String.toList_ofList]
  exact bare_trimBy _ _

theorem toList_ne_nil_iff : s.toList ≠ [] ↔ s ≠ "" := by
  rw [ne_eq, ← String.toList_empty, String.toList_inj]

theorem Trimmed.append (left : Trimmed s) (right : Trimmed t) (nonempty : s ≠ "") (more : t ≠ "") :
    Trimmed (s ++ t) := by
  rw [trimmed_iff, String.toList_append]
  exact (trimmed_iff.1 left).append (trimmed_iff.1 right) (toList_ne_nil_iff.2 nonempty)
    (toList_ne_nil_iff.2 more)

/-- What stands between trimmed texts does not matter. -/
theorem Trimmed.enclose (left : Trimmed s) (right : Trimmed t) (nonempty : s ≠ "") (more : t ≠ "")
    (between : String) : Trimmed (s ++ between ++ t) := by
  have front := toList_ne_nil_iff.2 nonempty
  have back := toList_ne_nil_iff.2 more
  rw [trimmed_iff, String.toList_append, String.toList_append]
  refine ⟨fun c first => ?_, fun c last => ?_⟩
  · rw [List.append_assoc, List.head?_append_of_ne_nil _ front] at first
    exact (trimmed_iff.1 left).first c first
  · rw [List.getLast?_append_of_ne_nil _ back] at last
    exact (trimmed_iff.1 right).last c last

/-- Where no character is blank there is none around. -/
theorem trimmed_of_no_blank (h : ∀ c ∈ s.toList, isBlank c = false) : Trimmed s :=
  trimmed_iff.2 ⟨fun c first => h c (List.mem_of_head? first), fun c last => h c (List.mem_of_getLast? last)⟩

theorem append_ne_empty_left (h : s ≠ "") (t : String) : s ++ t ≠ "" := by
  rw [← toList_ne_nil_iff, String.toList_append]
  exact List.append_ne_nil_of_left_ne_nil (toList_ne_nil_iff.2 h) _

/-! ## Numbers -/

theorem ofList_ne_empty (h : cs ≠ []) : String.ofList cs ≠ "" := by
  rw [← toList_ne_nil_iff, String.toList_ofList]
  exact h

theorem writeNat_ne_empty (n : Nat) : Decimal.writeNat n ≠ "" := ofList_ne_empty Nat.toDigits_ne_nil

theorem writeInt_ne_empty (n : Int) : Decimal.writeInt n ≠ "" := by
  cases n with
  | ofNat k => exact ofList_ne_empty Nat.toDigits_ne_nil
  | negSucc k => exact ofList_ne_empty (List.cons_ne_nil _ _)

theorem place_ne_nil (l : Decimal.Layout) (digits : List Char) (exponent : Int) :
    l.place digits exponent ≠ [] := by
  unfold Decimal.Layout.place
  split
  · split
    · exact List.cons_ne_nil _ _
    · exact List.append_ne_nil_of_right_ne_nil _ (List.cons_ne_nil _ _)
  · exact List.append_ne_nil_of_right_ne_nil _ (List.cons_ne_nil _ _)

theorem magnitude_ne_nil (l : Decimal.Layout) (m : Nat) (q : Int) : l.magnitude m q ≠ [] := by
  unfold Decimal.Layout.magnitude
  split
  · exact List.cons_ne_nil _ _
  · exact place_ne_nil _ _ _

theorem write_ne_empty (x : Float) : Decimal.plain.write x ≠ "" := by
  unfold Decimal.Layout.write
  split
  · decide
  · split <;> decide
  · exact ofList_ne_empty (List.append_ne_nil_of_right_ne_nil _ (magnitude_ne_nil _ _ _))

theorem trimmed_writeNat (n : Nat) : Trimmed (Decimal.writeNat n) := by
  refine trimmed_of_no_blank fun c mem => ?_
  rw [Decimal.writeNat, String.toList_ofList] at mem
  have digit := Nat.isDigit_of_mem_toDigits (by decide) (by decide) mem
  have range : 48 ≤ c.toNat ∧ c.toNat ≤ 57 := by
    simpa [Char.isDigit, Char.le_def, UInt32.le_iff_toNat_le] using digit
  simp [isBlank, isSpace]
  omega

end Journey.Text
