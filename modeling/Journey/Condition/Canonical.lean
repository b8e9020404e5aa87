import Journey.Condition.Clause
import Journey.Condition.Conversion
import Journey.Text.Blank
import Journey.Text.LowerCase

/-!
# Journey.Condition.Canonical -- the clauses that any stored value stands for

Whatever is stored as the settings of a condition block is read as a list of clauses that is never
empty: the items of its clause list, or, when there is none, the object itself as a single clause of
the older flat form.  A rule or comparator of no known name is replaced; a clause that only names a
property tests that property.

The handles of the list are then made canonical.  The first clause owns `if`.  A later clause keeps
its else-if handle when the number is below the number of clauses and no earlier clause has taken
it; otherwise it takes the least free one.  So the others own the handles from `else_if_1` on,
each once, without a gap.

All members of a clause are shown as texts, the numbers of the handles that later clauses ask for are
read, and new handles are written.  Where one of these conversions fails there are no canonical
clauses at all (`normalize`).

Main statements: no clause is lost or moved (`length_canonical`), the first one owns `if`
(`head?_canonical`), and when a stored value is legible (`legible_iff`).
-/

namespace Journey.Condition

set_option autoImplicit false

open Journey.Text (trim lower)

/-- The first of the keys that holds something. -/
def firstGiven (row : Fields) (keys : List String) : Document :=
  ((keys.map (Fields.getD row)).find? fun d => !d.isNull).getD .null

/-- The clause that any stored value stands for. -/
def readClause (d : Document) : Clause :=
  let row := d.fields
  let propertyKey := trim (firstGiven row ["propertyKey", "property_key"]).shown
  { id := trim (Fields.getD row "id").shown
    rule := (Rule.named? (lower (trim (Fields.getD row "rule").shown))).getD
      (if propertyKey.isEmpty then .emailOpened else .userProperty)
    propertyKey := propertyKey
    comparator := (Comparator.named? (lower (trim (Fields.getD row "comparator").shown))).getD .present
    value := (Fields.getD row "value").shown }

/-- The single clause of the flat form, which has no handle of its own. -/
def readFlat (row : Fields) : Clause :=
  { readClause (.object row) with id := "" }

/-- The clauses that any stored value stands for, with the handles they ask for. -/
def readClauses (d : Document) : List Clause :=
  match (Fields.getD d.fields "clauses").items with
  | [] => [readFlat d.fields]
  | c :: cs => readClause c :: cs.map readClause

/-- The handle of a later clause among `total`, given what it asks for and what is taken. -/
def grantHandle (total : Nat) (used : List String) (asked : String) : String :=
  match Handle.elseIf? asked with
  | some n =>
      if n < total && !used.contains asked then asked else Handle.elseIf (Handle.leastFree used)
  | none => Handle.elseIf (Handle.leastFree used)

/-- The later clauses with the handles they get. -/
def grantHandles (total : Nat) (used : List String) : List Clause → List Clause
  | [] => []
  | c :: cs =>
      let handle := grantHandle total used c.id
      { c with id := handle } :: grantHandles total (used ++ [handle]) cs

/-- The clauses with canonical handles. -/
def withHandles : List Clause → List Clause
  | [] => []
  | c :: cs => { c with id := Handle.ifBranch } :: grantHandles (cs.length + 1) [Handle.ifBranch] cs

/-- The clauses that any stored value stands for, with canonical handles. -/
def canonical (d : Document) : List Clause := withHandles (readClauses d)

@[simp] theorem length_grantHandles (total : Nat) (used : List String) (cs : List Clause) :
    (grantHandles total used cs).length = cs.length := by
  induction cs generalizing used with
  | nil => rfl
  | cons c cs ih => simp [grantHandles, ih]

@[simp] theorem length_canonical (d : Document) :
    (canonical d).length = (readClauses d).length := by
  unfold canonical
  cases readClauses d <;> simp [withHandles]

theorem readClauses_ne_nil (d : Document) : readClauses d ≠ [] := by
  unfold readClauses
  split <;> simp

theorem head?_canonical (d : Document) :
    (canonical d).head?.map (·.id) = some Handle.ifBranch := by
  unfold canonical
  cases h : readClauses d with
  | nil => exact absurd h (readClauses_ne_nil d)
  | cons c cs => rfl

/-! ## What is converted -/

/-- What is shown of an object with the members of a test. -/
def testTexts (row : Fields) : List Document :=
  [Fields.getD row "rule", Fields.getD row "comparator",
   firstGiven row ["propertyKey", "property_key"], Fields.getD row "value"]

/-- What is shown of a stored clause. -/
def clauseTexts (d : Document) : List Document := Fields.getD d.fields "id" :: testTexts d.fields

/-- What is shown of a stored value when its clauses are read. -/
def texts (d : Document) : List Document :=
  match (Fields.getD d.fields "clauses").items with
  | [] => testTexts d.fields
  | cs => cs.flatMap clauseTexts

/-- What is converted when the clauses of a stored value are read and get canonical handles. -/
def conversions (d : Document) : List Conversion :=
  (texts d).map .text ++ (readClauses d).tail.map (fun c => .handle c.id)
    ++ [.count (readClauses d).tail.length]

/-- The canonical clauses of a stored value. -/
def normalize (d : Document) : Except Overlong (List Clause) :=
  Conversion.after (conversions d) (canonical d)

/-- Whether the clauses of a stored value can be read. -/
def Legible (d : Document) : Prop := Conversion.Succeed (conversions d)

instance (d : Document) : Decidable (Legible d) :=
  inferInstanceAs (Decidable (Conversion.Succeed (conversions d)))

/-- A stored value is legible when its texts can be shown, the handles that its later clauses ask for
have numbers that can be read, and there are not too many clauses to number. -/
theorem legible_iff {d : Document} :
    Legible d ↔ (∀ t ∈ texts d, t.hasLong = false)
      ∧ (∀ c ∈ (readClauses d).tail, ∀ n, Handle.elseIf? c.id = some n → n < Decimal.leastLong)
      ∧ (readClauses d).tail.length < Decimal.leastLong := by
  simp only [Legible, conversions, Conversion.succeed_append, Conversion.succeed_map,
    Conversion.failure?_text_eq_none, Conversion.failure?_handle_eq_none, Conversion.succeed_cons,
    Conversion.failure?_count_eq_none, Conversion.succeed_nil, and_true, and_assoc]

theorem normalize_eq_ok_iff {d : Document} {cs : List Clause} :
    normalize d = .ok cs ↔ Legible d ∧ canonical d = cs :=
  Conversion.after_eq_ok_iff

theorem exists_normalize_iff {d : Document} : (∃ cs, normalize d = .ok cs) ↔ Legible d :=
  Conversion.exists_after_eq_ok_iff

/-- A clause like every new one, at a position. -/
def newClause (position : Nat) : Clause := { id := Handle.ofClause position }

/-- The clause to add after the given ones: a new one on the least free else-if handle. -/
def nextClause (clauses : List Clause) : Clause :=
  newClause (Handle.leastFree (clauses.map (·.id)))

end Journey.Condition

namespace Journey.ConditionConfig

/-- The clauses of stored settings with canonical handles. -/
def canonical (c : ConditionConfig) : List Clause :=
  Condition.canonical (.object (c.row Key.written .kept))

/-- What is converted when the clauses of settings get canonical handles. -/
def conversions (c : ConditionConfig) : List Conversion :=
  Condition.conversions (.object (c.row Key.written .kept))

end Journey.ConditionConfig
