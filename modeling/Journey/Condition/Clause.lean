import Journey.Checked.Record
import Journey.Document.Nulls

/-!
# Journey.Condition.Clause -- the clauses of a condition block

A clause is one test of a contact: of a property by name, of an opened or clicked message, of a tag,
or of a custom event.  Its id is the handle of the branch that is taken when the test succeeds.  The
key and the comparator matter for properties only; the value is what a property is compared with, or
the name of the tag or event.

A condition block holds a list of clauses in the order in which they are tried.  Both keep members
of their stored objects that they do not know.  Main statement: the names of rules and comparators
are read back (`Rule.named?_name`, `Comparator.named?_name`).
-/

namespace Journey

set_option autoImplicit false

/-- What a clause tests. -/
inductive Rule where
  | userProperty
  | emailOpened
  | emailClicked
  | tagExists
  | customEvent
  deriving DecidableEq

namespace Rule

def name : Rule → String
  | .userProperty => "user_property"
  | .emailOpened => "email_opened"
  | .emailClicked => "email_clicked"
  | .tagExists => "tag_exists"
  | .customEvent => "custom_event"

def all : List Rule := [.userProperty, .emailOpened, .emailClicked, .tagExists, .customEvent]

def named? (s : String) : Option Rule := all.find? fun r => r.name == s

@[simp] theorem named?_name (r : Rule) : named? r.name = some r := by cases r <;> decide

end Rule

/-- How a property is compared with a value. -/
inductive Comparator where
  | equals
  | contains
  | present
  deriving DecidableEq

namespace Comparator

def name : Comparator → String
  | .equals => "equals"
  | .contains => "contains"
  | .present => "exists"

def all : List Comparator := [.equals, .contains, .present]

def named? (s : String) : Option Comparator := all.find? fun c => c.name == s

@[simp] theorem named?_name (c : Comparator) : named? c.name = some c := by cases c <;> decide

end Comparator

/-- One test, and the handle of the branch it leads to. -/
structure Clause where
  id : String := "if"
  rule : Rule := .emailOpened
  propertyKey : String := ""
  comparator : Comparator := .present
  value : String := ""
  /-- Members of the stored object that are not declared. -/
  extra : Fields := []

/-- The clauses of a condition block in the order in which they are tried. -/
structure ConditionConfig where
  clauses : List Clause := [{}]
  /-- Members of the stored object that are not declared. -/
  extra : Fields := []

namespace Clause

def idKey : Key := .word "id"
def ruleKey : Key := .word "rule"
def propertyKeyKey : Key := ⟨"propertyKey", "property_key"⟩
def comparatorKey : Key := .word "comparator"
def valueKey : Key := .word "value"

/-- The declared fields in their order. -/
def keys : List Key := [idKey, ruleKey, propertyKeyKey, comparatorKey, valueKey]

/-- The check of a stored clause. -/
def decode (row : Fields) : Checked Clause :=
  Clause.mk
    <$> .field row idKey .text "if"
    <*> .field row ruleKey (.choice Rule.named?) .emailOpened
    <*> .field row propertyKeyKey .text ""
    <*> .field row comparatorKey (.choice Comparator.named?) .present
    <*> .field row valueKey .text ""
    <*> .valid (Key.unclaimed keys row)

/-- The members of a clause, the declared ones in the given spelling. -/
def row (spell : Key → String) (c : Clause) : Fields :=
  Fields.overlay
    [(spell idKey, .text c.id), (spell ruleKey, .text c.rule.name),
     (spell propertyKeyKey, .text c.propertyKey), (spell comparatorKey, .text c.comparator.name),
     (spell valueKey, .text c.value)]
    c.extra

end Clause

namespace ConditionConfig

def clausesKey : Key := .word "clauses"

/-- The declared fields in their order. -/
def keys : List Key := [clausesKey]

/-- The check of the stored settings of a condition block. -/
def decode (row : Fields) : Checked ConditionConfig :=
  ConditionConfig.mk
    <$> .field row clausesKey (.list (.object Clause.decode)) [{}]
    <*> .valid (Key.unclaimed keys row)

/-- The members of the settings, the declared ones in the given spelling. -/
def row (spell : Key → String) (nulls : Nulls) (c : ConditionConfig) : Fields :=
  Fields.overlay
    [(spell clausesKey, .list (c.clauses.map fun clause => nulls.object (clause.row spell)))]
    c.extra

end ConditionConfig

end Journey
