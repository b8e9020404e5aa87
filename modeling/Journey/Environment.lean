import Journey.Decimal.Reading
import Journey.Document.Basic
import Journey.Text.Blank
import Journey.Text.LowerCase

/-!
# Journey.Environment -- settings from environment variables

A setting is declared with a default, and a variable of the environment may be named for it.  The
text of the variable is read as what the default is: a truth value, a whole number, a floating
number, or any text.  A variable that is missing or empty or cannot be read says nothing, and neither
does one that is named for a setting nobody has declared; the default then stays in force.

Main statement: only declared settings are read (`has_of_mem_read`).
-/

namespace Journey.Environment

set_option autoImplicit false

open Journey.Text (trim lower)

/-- Variables with their texts. -/
abbrev Variables := List (String × String)

/-- The spellings of a truth value. -/
def flagNames : List (String × Bool) :=
  [("1", true), ("true", true), ("yes", true), ("on", true),
   ("0", false), ("false", false), ("no", false), ("off", false)]

/-- The value of a text for a setting with the default. -/
def readText (default : Document) (text : String) : Option Document :=
  match default with
  | .bool _ => (flagNames.lookup (lower (trim text))).map .bool
  | .int _ => (Decimal.freeInt? (trim text)).map .int
  | .float _ => (Decimal.freeReal? (trim text)).map .float
  | _ => some (.text text)

/-- The value that the environment gives for a setting by way of the variable
`source`. -/
def readSetting (environment : Variables) (declared : Fields) (setting source : String) :
    Option Document :=
  match Fields.get? declared setting, environment.lookup source with
  | some default, some text => if text.isEmpty then none else readText default text
  | _, _ => none

/-- The settings that the environment gives, with the variables named for them. -/
def read (sources : Variables) (declared : Fields) (environment : Variables) : Fields :=
  sources.filterMap fun v =>
    (readSetting environment declared v.1 v.2).map fun value => (v.1, value)

theorem has_of_mem_read {sources environment : Variables} {declared : Fields}
    {m : String × Document} (h : m ∈ read sources declared environment) :
    Fields.has declared m.1 = true := by
  simp only [read, List.mem_filterMap, Option.map_eq_some_iff] at h
  obtain ⟨v, -, value, given, rfl⟩ := h
  simp only [readSetting] at given
  split at given
  · next found _ => simp [Fields.has, found]
  · simp at given

end Journey.Environment
