import Journey.Document.Basic
import Journey.Decimal.Layout
import Journey.Decimal.Overlong
import Journey.Text.Quoted

/-!
# Journey.Document.Display -- the text of a document

Where a text is wanted and a document of another kind is found, the document is shown: a text as it
is, a number by its digits, a truth value and nothing by their names, a list and an object by their
members between brackets and braces.  Texts inside a list or an object are in quotes
(`Text.quoted`), so that the text of a list tells a number from its digits in quotes.  In most
places nothing is shown as the empty text (`Document.shown`).  A document that holds a whole number
with too many digits has no text (`Document.hasLong`).
-/

namespace Journey.Document

set_option autoImplicit false

mutual

/-- The text of a document as a member of a list or an object. -/
def inner : Document → String
  | .null => "None"
  | .bool b => if b then "True" else "False"
  | .int n => Decimal.writeInt n
  | .float x => Decimal.plain.write x
  | .text s => Text.quoted s
  | .list ds => "[" ++ ", ".intercalate (innerItems ds) ++ "]"
  | .object row => "\x7b" ++ ", ".intercalate (innerFields row) ++ "\x7d"

/-- The texts of the items of a list. -/
def innerItems : List Document → List String
  | [] => []
  | d :: ds => inner d :: innerItems ds

/-- The texts of the members of an object. -/
def innerFields : List (String × Document) → List String
  | [] => []
  | (k, d) :: row => (Text.quoted k ++ ": " ++ inner d) :: innerFields row

end

/-- The text of a document. -/
def display : Document → String
  | .text s => s
  | d => inner d

/-- The text of a document, nothing being empty. -/
def shown : Document → String
  | .null => ""
  | d => display d

/-! ## What cannot be shown

The digits of a whole number are written only if there are not too many, so a document that holds
a longer number anywhere has no text. -/

mutual

/-- Whether a document holds a whole number with too many digits. -/
def hasLong : Document → Bool
  | .int n => Decimal.isLong n.natAbs
  | .list ds => itemsHaveLong ds
  | .object row => fieldsHaveLong row
  | _ => false

/-- Whether an item of a list holds a whole number with too many digits. -/
def itemsHaveLong : List Document → Bool
  | [] => false
  | d :: ds => hasLong d || itemsHaveLong ds

/-- Whether a member of an object holds a whole number with too many digits. -/
def fieldsHaveLong : List (String × Document) → Bool
  | [] => false
  | (_, d) :: row => hasLong d || fieldsHaveLong row

end

@[simp] theorem hasLong_text (s : String) : hasLong (.text s) = false := by simp [hasLong]

@[simp] theorem hasLong_null : hasLong .null = false := by simp [hasLong]

@[simp] theorem shown_text (s : String) : shown (.text s) = s := rfl

@[simp] theorem shown_null : shown .null = "" := rfl

end Journey.Document
