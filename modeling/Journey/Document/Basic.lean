/-!
# Journey.Document.Basic -- stored documents

A document is what a workflow is stored as: nothing, a truth value, a number, a text, a list, or an
object whose members keep the order they were written in.  A whole number and a floating number are
different documents even when their values agree.

The rows of an object are a list of keys with values (`Fields`).  `Fields.get?` finds the value of a
key, `Fields.set` replaces it in place or appends it.  A document that is no object counts as an
object without members where members are asked for (`Document.fields`), and one that is no list as a
list without items (`Document.items`).  Main statements: a value that was set is found, and the
others are untouched (`get?_set`); what was dropped is not found, and the rest is
(`get?_without`).
-/

namespace Journey

set_option autoImplicit false

/-- A stored value. -/
inductive Document where
  | null
  | bool (value : Bool)
  | int (value : Int)
  | float (value : Float)
  | text (value : String)
  | list (items : List Document)
  | object (fields : List (String × Document))
  deriving Inhabited

/-- The members of an object in their order. -/
abbrev Fields := List (String × Document)

namespace Fields

/-- The value of the first member with the key. -/
def get? (row : Fields) (key : String) : Option Document := row.lookup key

/-- Whether a member has the key. -/
def has (row : Fields) (key : String) : Bool := (get? row key).isSome

/-- The value of the key, nothing if no member has it. -/
def getD (row : Fields) (key : String) : Document := (get? row key).getD .null

/-- The row with the value under the key: in the place of the old value, at the end if new. -/
def set : Fields → String → Document → Fields
  | [], key, value => [(key, value)]
  | (k, v) :: row, key, value =>
      if k = key then (key, value) :: row else (k, v) :: set row key value

/-- The members of the second row put into the first one after the other. -/
def overlay (row patch : Fields) : Fields :=
  patch.foldl (fun r m => set r m.1 m.2) row

/-- The members whose keys are not listed. -/
def without (row : Fields) (keys : List String) : Fields :=
  row.filter fun m => !keys.contains m.1

/-- The keys in their order. -/
def keys (row : Fields) : List String := row.map (·.1)

@[simp] theorem get?_nil (key : String) : get? [] key = none := rfl

theorem get?_cons (k : String) (v : Document) (row : Fields) (key : String) :
    get? ((k, v) :: row) key = if key = k then some v else get? row key := by
  rw [get?, List.lookup_cons]
  by_cases h : key = k
  · subst h; simp
  · have : (key == k) = false := by simpa using h
    simp [get?, this, h]

/-- Setting a key changes the value of that key and of no other. -/
theorem get?_set (row : Fields) (key : String) (value : Document) (other : String) :
    get? (set row key value) other = if other = key then some value else get? row other := by
  induction row with
  | nil => simp [set, get?_cons]
  | cons m row ih =>
    obtain ⟨k, v⟩ := m
    by_cases h : k = key
    · subst h
      simp only [set, if_true, get?_cons]
      split <;> rfl
    · simp only [set, h, if_false, get?_cons, ih]
      by_cases ho : other = key
      · subst ho
        simp [Ne.symm h]
      · simp [ho]

/-- Dropping keys loses them and nothing else. -/
theorem get?_without (row : Fields) (dropped : List String) (key : String) :
    get? (without row dropped) key = if key ∈ dropped then none else get? row key := by
  induction row with
  | nil => simp [without]
  | cons m row ih =>
    obtain ⟨k, v⟩ := m
    have step : without ((k, v) :: row) dropped
        = if k ∈ dropped then without row dropped else (k, v) :: without row dropped := by
      by_cases hk : k ∈ dropped <;> simp [without, hk]
    rw [step]
    by_cases hk : k ∈ dropped
    · simp only [hk, if_true, ih, get?_cons]
      by_cases he : key = k
      · subst he; simp [hk]
      · simp [he]
    · simp only [hk, if_false, get?_cons, ih]
      by_cases he : key = k
      · subst he; simp [hk]
      · simp [he]

end Fields

namespace Document

/-- The members of an object; a document that is no object has none. -/
def fields : Document → Fields
  | .object row => row
  | _ => []

/-- The items of a list; a document that is no list has none. -/
def items : Document → List Document
  | .list ds => ds
  | _ => []

def isNull : Document → Bool
  | .null => true
  | _ => false

def isObject : Document → Bool
  | .object _ => true
  | _ => false

/-- Nothing, false, zero, or without content. -/
def isVoid : Document → Bool
  | .null => true
  | .bool b => !b
  | .int n => n == 0
  | .float x => x == 0.0
  | .text s => s.isEmpty
  | .list ds => ds.isEmpty
  | .object row => row.isEmpty

/-- An optional text, absent being nothing. -/
def ofText? : Option String → Document
  | some s => .text s
  | none => .null

/-- An optional whole number, absent being nothing. -/
def ofInt? : Option Int → Document
  | some n => .int n
  | none => .null

@[simp] theorem fields_object (row : Fields) : fields (.object row) = row := rfl

@[simp] theorem items_list (ds : List Document) : items (.list ds) = ds := rfl

/-! ## Equality

Two documents are the same when they are written the same; an undefined number is the same as
itself. -/

mutual

/-- Equality of documents. -/
def same : Document → Document → Bool
  | .null, .null => true
  | .bool a, .bool b => a == b
  | .int a, .int b => a == b
  | .float a, .float b => a.toBits == b.toBits
  | .text a, .text b => a == b
  | .list as, .list bs => sameItems as bs
  | .object as, .object bs => sameFields as bs
  | _, _ => false

/-- Equality of lists of documents. -/
def sameItems : List Document → List Document → Bool
  | [], [] => true
  | a :: as, b :: bs => same a b && sameItems as bs
  | _, _ => false

/-- Equality of rows, order included. -/
def sameFields : List (String × Document) → List (String × Document) → Bool
  | [], [] => true
  | (k, a) :: as, (l, b) :: bs => k == l && same a b && sameFields as bs
  | _, _ => false

end

instance : BEq Document := ⟨same⟩

end Document

end Journey
