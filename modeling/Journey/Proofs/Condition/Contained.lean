import Journey.Condition.Outcome
import Mathlib.Data.List.Basic
import Mathlib.Data.List.TakeWhile

/-!
# Journey.Proofs.Condition.Contained -- what is found when a property has to contain a text

A property contains a value if the value in lower case stands in the property in lower case.  What a text
becomes in lower case depends on what stands around it (`lowerBetween`), but by its capital sigmas only: an
occurrence of the value is read as the value is read by itself exactly if none of its capital sigmas is
turned (`lowerBetween_eq_iff`).  One is turned in two ways (`Turned`).  It closes a word in the value, where
the word goes on in the property; or it closes a word in the property that has begun before the value.

Main statement: a value that stands in the property is found if no capital sigma is turned where it stands,
so a value without capital sigmas is always found (`holds_of_not_turned`).  One that is not found is seen in
`not_holds_turned`.
-/

namespace Journey

set_option autoImplicit false

namespace Text

variable {before before' after after' cs ds : List Char}

/-! ## The lower case of a part -/

/-- The lower case of a text between two others; the one before it is given from the nearest character on. -/
def lowerBetween (before : List Char) : List Char → List Char → List Char
  | [], _ => []
  | c :: cs, after =>
      (if c = '\u03a3' then [if closesWord before (cs ++ after) then '\u03c2' else '\u03c3']
        else lowerChar c) ++ lowerBetween (c :: before) cs after

theorem lowerFrom_eq (before cs : List Char) : lowerFrom before cs = lowerBetween before cs [] := by
  induction cs generalizing before with
  | nil => rfl
  | cons c cs ih => rw [lowerFrom, lowerBetween, ih, List.append_nil]

theorem lowerBetween_append (before cs ds after : List Char) :
    lowerBetween before (cs ++ ds) after
      = lowerBetween before cs (ds ++ after) ++ lowerBetween (cs.reverse ++ before) ds after := by
  induction cs generalizing before with
  | nil => rfl
  | cons c cs ih =>
    rw [List.cons_append, lowerBetween, ih, lowerBetween, List.append_assoc, List.append_assoc,
      List.reverse_cons, List.append_assoc]
    rfl

/-- The lower case of a text is that of its parts, each where it stands. -/
theorem toList_lower {s : String} (split : s.toList = before ++ cs ++ after) :
    (lower s).toList = lowerBetween [] before (cs ++ after) ++ lowerBetween before.reverse cs after
      ++ lowerBetween (cs.reverse ++ before.reverse) after [] := by
  rw [lower, String.toList_ofList, lowerFrom_eq, split, lowerBetween_append, lowerBetween_append]
  simp only [List.append_nil, List.reverse_append]

theorem forall_split_cons_iff {c d : Char} {p : List Char → List Char → Prop} :
    (∀ xs ys, c :: cs = xs ++ d :: ys → p xs ys)
      ↔ (c = d → p [] cs) ∧ ∀ xs ys, cs = xs ++ d :: ys → p (c :: xs) ys := by
  constructor
  · intro all
    refine ⟨fun same => all [] cs (same ▸ rfl), fun xs ys split => all (c :: xs) ys ?_⟩
    rw [split, List.cons_append]
  · rintro ⟨here, later⟩ xs ys split
    cases xs with
    | nil =>
      obtain ⟨same, rfl⟩ := List.cons.inj split
      exact here same
    | cons x xs =>
      obtain ⟨rfl, rest⟩ := List.cons.inj split
      exact later xs ys rest

/-- A text is read alike in two places exactly if in both of them the same capital sigmas close words. -/
theorem lowerBetween_eq_lowerBetween_iff :
    lowerBetween before cs after = lowerBetween before' cs after'
      ↔ ∀ xs ys, cs = xs ++ '\u03a3' :: ys →
          closesWord (xs.reverse ++ before) (ys ++ after) = closesWord (xs.reverse ++ before') (ys ++ after') := by
  induction cs generalizing before before' with
  | nil => simp [lowerBetween]
  | cons c cs ih =>
    rw [forall_split_cons_iff]
    simp only [List.reverse_cons, List.append_assoc, List.singleton_append, List.reverse_nil, List.nil_append]
    rw [← ih, lowerBetween, lowerBetween]
    by_cases sigma : c = '\u03a3'
    · rw [if_pos sigma, if_pos sigma, List.singleton_append, List.singleton_append, List.cons.injEq]
      refine and_congr_left fun _ => ?_
      cases closesWord before (cs ++ after) <;> cases closesWord before' (cs ++ after') <;> simp [sigma]
    · rw [if_neg sigma, if_neg sigma, List.append_cancel_left_eq]
      exact (and_iff_right fun same => absurd same sigma).symm

/-! ## Sigmas that are turned -/

/-- The nearest character that is not looked through has a case. -/
def meetsCased (cs : List Char) : Bool := (cs.dropWhile isCaseIgnorable).head?.any isCased

theorem meetsCased_of_all (through : cs.all isCaseIgnorable = true) : meetsCased cs = false := by
  rw [meetsCased, List.dropWhile_eq_nil_iff.2 (List.all_eq_true.1 through)]
  rfl

theorem meetsCased_append (cs ds : List Char) :
    meetsCased (cs ++ ds) = if cs.all isCaseIgnorable then meetsCased ds else meetsCased cs := by
  unfold meetsCased
  rw [List.dropWhile_append]
  split
  · next void =>
    rw [if_pos (List.all_eq_true.2 (List.dropWhile_eq_nil_iff.1 (by simpa using void)))]
  · next nonempty =>
    have stops : ¬ cs.all isCaseIgnorable = true := fun through => nonempty <| by
      rw [List.dropWhile_eq_nil_iff.2 (List.all_eq_true.1 through)]
      rfl
    rw [if_neg stops, List.head?_append_of_ne_nil _ (by simpa using nonempty)]

/-- A capital sigma of a text closes a word in the text but not between two others, or the other way round. -/
inductive Turned (before cs after : List Char) : Prop where
  /-- The word that it closes goes on after the text. -/
  | goesOn (xs ys : List Char) : cs = xs ++ '\u03a3' :: ys → meetsCased xs.reverse = true →
      ys.all isCaseIgnorable = true → meetsCased after = true → Turned before cs after
  /-- It closes a word that begins before the text. -/
  | joins (xs ys : List Char) : cs = xs ++ '\u03a3' :: ys → xs.all isCaseIgnorable = true →
      meetsCased before.reverse = true → meetsCased (ys ++ after) = false → Turned before cs after

theorem closesWord_eq (before after : List Char) :
    closesWord before after = (meetsCased before && !meetsCased after) := rfl

/-- A capital sigma closes a word here and not there only if what is looked through ends at an end of the
text. -/
theorem closesWord_ne_iff {xs ys : List Char} :
    closesWord (xs.reverse ++ before.reverse) (ys ++ after) ≠ closesWord xs.reverse ys
      ↔ meetsCased xs.reverse = true ∧ ys.all isCaseIgnorable = true ∧ meetsCased after = true
        ∨ xs.all isCaseIgnorable = true ∧ meetsCased before.reverse = true
          ∧ meetsCased (ys ++ after) = false := by
  rw [closesWord_eq, closesWord_eq, meetsCased_append xs.reverse, List.all_reverse]
  by_cases left : xs.all isCaseIgnorable = true
  · have alone : meetsCased xs.reverse = false := meetsCased_of_all (by rwa [List.all_reverse])
    rw [if_pos left, alone]
    simp [left]
  · rw [if_neg left, meetsCased_append ys]
    by_cases right : ys.all isCaseIgnorable = true
    · rw [if_pos right, meetsCased_of_all right]
      simp [left, right]
    · rw [if_neg right]
      simp [left, right]

theorem turned_iff :
    Turned before cs after ↔ ∃ xs ys, cs = xs ++ '\u03a3' :: ys
      ∧ closesWord (xs.reverse ++ before.reverse) (ys ++ after) ≠ closesWord xs.reverse ys := by
  simp only [closesWord_ne_iff]
  constructor
  · rintro (⟨xs, ys, split, cased, through, next⟩ | ⟨xs, ys, split, through, cased, ends⟩)
    · exact ⟨xs, ys, split, .inl ⟨cased, through, next⟩⟩
    · exact ⟨xs, ys, split, .inr ⟨through, cased, ends⟩⟩
  · rintro ⟨xs, ys, split, ⟨cased, through, next⟩ | ⟨through, cased, ends⟩⟩
    · exact .goesOn xs ys split cased through next
    · exact .joins xs ys split through cased ends

/-- A part of a text is read as it is read by itself exactly if no capital sigma is turned. -/
theorem lowerBetween_eq_iff : lowerBetween before.reverse cs after = lowerFrom [] cs ↔ ¬ Turned before cs after := by
  rw [lowerFrom_eq, lowerBetween_eq_lowerBetween_iff, turned_iff]
  simp only [List.append_nil, not_exists, not_and, not_not]

instance (before cs after : List Char) : Decidable (Turned before cs after) :=
  decidable_of_iff (lowerBetween before.reverse cs after ≠ lowerFrom [] cs)
    ((not_congr lowerBetween_eq_iff).trans not_not)

theorem not_turned_of_not_mem (plain : '\u03a3' ∉ cs) : ¬ Turned before cs after := by
  rw [turned_iff]
  rintro ⟨xs, ys, rfl, -⟩
  exact plain (by simp)

/-- A part of a text where no capital sigma is turned is found without regard to case. -/
theorem contains_lower {s value : String} (split : s.toList = before ++ value.toList ++ after)
    (straight : ¬ Turned before value.toList after) : contains (lower s) (lower value) = true := by
  rw [contains, occurs_iff, toList_lower split, lowerBetween_eq_iff.2 straight, lower, String.toList_ofList]
  exact List.infix_append _ _ _

end Text

namespace Condition

open Journey.Text (trim lower lowerBetween Turned)

/-- Where a value stands in the text of a property, its lower case is read there exactly if none of its
capital sigmas is turned, and then the property contains the value.  So it contains every value without
capital sigmas that stands in it. -/
theorem holds_of_not_turned (c : Clause) (contact : Contact) (text : String) (rule : c.rule = .userProperty)
    (comparator : c.comparator = .contains) (named : trim c.propertyKey ≠ "")
    (property : Fields.get? contact.properties (trim c.propertyKey) = some (.text text)) :
    (∀ before after, text.toList = before ++ c.value.toList ++ after →
      (lowerBetween before.reverse c.value.toList after = (lower c.value).toList
          ↔ ¬ Turned before c.value.toList after)
        ∧ (¬ Turned before c.value.toList after → holds c contact = true))
      ∧ ('\u03a3' ∉ c.value.toList → c.value.toList <:+: text.toList → holds c contact = true) := by
  have decided : holds c contact = Text.contains (lower text) (lower c.value) := by
    have key : (trim c.propertyKey).isEmpty = false := by simpa using named
    simp only [holds, rule, comparator, key, compares, lookUp, Condition.property, property,
      Document.shown_text, Bool.not_false, Bool.true_and]
  rw [decided]
  refine ⟨fun before after split => ⟨?_, Text.contains_lower split⟩, fun plain => ?_⟩
  · rw [lower, String.toList_ofList]
    exact Text.lowerBetween_eq_iff
  · rintro ⟨before, after, split⟩
    exact Text.contains_lower split.symm (Text.not_turned_of_not_mem plain)

/-- A clause that asks whether the street of a contact contains a text. -/
def streetContains (value : String) : Clause :=
  { rule := .userProperty, propertyKey := " street ", comparator := .contains, value }

/-- Of two occurrences, the first goes on with a small letter; the other is found. -/
theorem holds_of_not_turned_twice :
    Turned [] "ΟΔΟΣ".toList "α ΟΔΟΣ 5".toList ∧ ¬ Turned "ΟΔΟΣα ".toList "ΟΔΟΣ".toList " 5".toList
      ∧ holds (streetContains "ΟΔΟΣ") { properties := [("street", .text "ΟΔΟΣα ΟΔΟΣ 5")] } = true := by
  have straight : ¬ Turned "ΟΔΟΣα ".toList "ΟΔΟΣ".toList " 5".toList := by decide +kernel
  have key : trim (streetContains "ΟΔΟΣ").propertyKey = "street" := by decide +kernel
  obtain ⟨found, -⟩ := holds_of_not_turned (streetContains "ΟΔΟΣ")
    { properties := [("street", .text "ΟΔΟΣα ΟΔΟΣ 5")] } "ΟΔΟΣα ΟΔΟΣ 5" rfl rfl (by rw [key]; decide)
    (by rw [key]; rfl)
  exact ⟨by decide +kernel, straight, (found _ _ (by decide +kernel)).2 straight⟩

/-- A text that stands in the property and is not found there. -/
theorem not_holds_turned :
    "ΑΣ".toList <:+: "ΑΣΑ".toList
      ∧ holds (streetContains "ΑΣ") { properties := [("street", .text "ΑΣΑ")] } = false :=
  ⟨⟨[], ['Α'], by decide +kernel⟩, by decide +kernel⟩

end Condition

end Journey
