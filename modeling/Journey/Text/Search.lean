/-!
# Journey.Text.Search -- one text inside another

`occurs needle text` says that the needle stands somewhere in the text, character for character; the
empty needle stands everywhere.  Main statement: it does so exactly when the text is the needle with
something before and after it (`occurs_iff`).
-/

namespace Journey.Text

set_option autoImplicit false

/-- Whether the first text stands somewhere in the second. -/
def occurs (needle : List Char) : List Char → Bool
  | [] => needle.isEmpty
  | c :: cs => needle.isPrefixOf (c :: cs) || occurs needle cs

/-- Whether the first text stands somewhere in the second. -/
def contains (text needle : String) : Bool := occurs needle.toList text.toList

theorem occurs_iff {needle cs : List Char} : occurs needle cs = true ↔ needle <:+: cs := by
  induction cs with
  | nil => simp [occurs]
  | cons c cs ih =>
    simp only [occurs, Bool.or_eq_true, List.isPrefixOf_iff_prefix, ih, List.infix_cons_iff]

end Journey.Text
