import Journey.Condition.Branch
import Journey.Condition.Contact
import Journey.Text.Search

/-!
# Journey.Condition.Outcome -- which branch a contact takes

The clauses are tried in their order and the first that holds gives the branch; when none holds the
contact falls through.  Tags, events and properties are compared without regard to case.  A tag or
event holds when the contact has one of that name, blanks around it aside; an empty name never
holds.  A property without a key never holds; a property that the contact does not have is empty.

Main statements: the branch that is picked is one of the branches of the block
(`accepts_pick`), and it is a match exactly when some clause holds (`matched_pick`).
-/

namespace Journey.Condition

set_option autoImplicit false

open Journey.Text (trim lower)

/-- A property: the exact name first, then the first name that agrees but for case. -/
def property (properties : Fields) (key : String) : Document :=
  match Fields.get? properties key with
  | some d => d
  | none => ((properties.find? fun m => lower m.1 == lower key).map (·.2)).getD .null

/-- The text of a property. -/
def lookUp (properties : Fields) (key : String) : String := (property properties key).shown

/-- Whether one of the names is the wanted one, which is trimmed and in lower case. -/
def mentions (names : List String) (wanted : String) : Bool :=
  names.any fun n => lower (trim n) == wanted

/-- Whether the names hold a name that is not empty. -/
def named (names : List String) (name : String) : Bool :=
  let wanted := lower (trim name)
  !wanted.isEmpty && mentions names wanted

/-- Whether a property compares as it should; both texts are in lower case. -/
def compares (comparator : Comparator) (current expected : String) : Bool :=
  match comparator with
  | .equals => current == expected
  | .contains => Text.contains current expected
  | .present => !current.isEmpty

/-- Whether a clause holds of a contact. -/
def holds (c : Clause) (contact : Contact) : Bool :=
  match c.rule with
  | .emailOpened => contact.opened
  | .emailClicked => contact.clicked
  | .tagExists => named contact.tags c.value
  | .customEvent => named contact.events c.value
  | .userProperty =>
      let key := trim c.propertyKey
      !key.isEmpty
        && compares c.comparator (lower (lookUp contact.properties key)) (lower c.value)

/-- The branch of the first clause that holds, the first of the clauses standing at `start`. -/
def pickFrom (start : Nat) (contact : Contact) : List Clause → Branch
  | [] => .fallThrough
  | c :: cs => if holds c contact then .ofClause start c else pickFrom (start + 1) contact cs

/-- The branch that a contact takes. -/
def pick (clauses : List Clause) (contact : Contact) : Branch := pickFrom 0 contact clauses

/-- What is shown of a contact to decide on a clause. -/
def lookUps (c : Clause) (contact : Contact) : List Conversion :=
  match c.rule with
  | .userProperty =>
      let key := trim c.propertyKey
      if key.isEmpty then [] else [.text (property contact.properties key)]
  | _ => []

/-- Whether a clause holds of a contact, once what it asks for is shown. -/
def tryHolds (c : Clause) (contact : Contact) : Except Overlong Bool :=
  Conversion.after (lookUps c contact) (holds c contact)

/-- What is shown of a contact to pick a branch: what the clauses ask for up to the first that
holds. -/
def pickLookUps (contact : Contact) : List Clause → List Conversion
  | [] => []
  | c :: cs => lookUps c contact ++ if holds c contact then [] else pickLookUps contact cs

/-- The branch that a contact takes among those of what a stored value stands for. -/
def tryPick (d : Document) (contact : Contact) : Except Overlong Branch := do
  let clauses ← normalize d
  Conversion.after (pickLookUps contact clauses) (pick clauses contact)

/-- Whether a clause led to the branch. -/
def Branch.matched (b : Branch) : Bool := b.position.isSome

theorem pickFrom_mem (start : Nat) (contact : Contact) (cs : List Clause) :
    pickFrom start contact cs ∈ clauseBranches start cs ++ [.fallThrough] := by
  induction cs generalizing start with
  | nil => simp [pickFrom, clauseBranches]
  | cons c cs ih =>
    simp only [pickFrom, clauseBranches]
    split
    · simp
    · exact List.mem_cons_of_mem _ (ih (start + 1))

theorem accepts_pick (clauses : List Clause) (contact : Contact) :
    accepts clauses (pick clauses contact).handle = true := by
  simp only [accepts, branches, List.any_eq_true]
  exact ⟨_, pickFrom_mem 0 contact clauses, by simp [pick]⟩

theorem matched_pickFrom (start : Nat) (contact : Contact) (cs : List Clause) :
    (pickFrom start contact cs).matched = cs.any (holds · contact) := by
  induction cs generalizing start with
  | nil => rfl
  | cons c cs ih =>
    simp only [pickFrom, List.any_cons]
    split
    · next h => simp [Branch.matched, Branch.ofClause, h]
    · next h => simp [ih, h]

theorem matched_pick (clauses : List Clause) (contact : Contact) :
    (pick clauses contact).matched = clauses.any (holds · contact) :=
  matched_pickFrom 0 contact clauses

end Journey.Condition
