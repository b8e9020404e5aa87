import Journey.Condition.Canonical

/-!
# Journey.Condition.Branch -- the branches of a condition block

A condition block has one branch for each clause and, last, the branch that is taken when none of
them holds.  The functions take the canonical clauses, so that everything that lists, accepts or
labels a branch looks at the same list.  Main statement: a handle is accepted exactly when it has a
label (`accepts_eq_isSome_labelAt?`).
-/

namespace Journey.Condition

set_option autoImplicit false

/-- A way out of a condition block; the last one has no clause. -/
structure Branch where
  handle : String
  label : String
  position : Option Nat
  deriving DecidableEq

namespace Branch

/-- What makes the branch be taken: the first clause, a later one, or none. -/
def kindName (b : Branch) : String :=
  match b.position with
  | some 0 => "if"
  | some _ => "else_if"
  | none => "else"

/-- The branch of the clause at a position. -/
def ofClause (position : Nat) (c : Clause) : Branch :=
  ⟨c.id, Handle.label c.id position, some position⟩

/-- The branch that is taken when no clause holds. -/
def fallThrough : Branch := ⟨Handle.elseBranch, "Else", none⟩

end Branch

/-- The branches of clauses, the first of which stands at `start`. -/
def clauseBranches (start : Nat) : List Clause → List Branch
  | [] => []
  | c :: cs => .ofClause start c :: clauseBranches (start + 1) cs

/-- All branches of a condition block. -/
def branches (clauses : List Clause) : List Branch :=
  clauseBranches 0 clauses ++ [.fallThrough]

/-- All branches of what a stored value stands for. -/
def tryBranches (d : Document) : Except Overlong (List Branch) := (normalize d).map branches

/-- The label of the branch on a handle. -/
def labelAt? (clauses : List Clause) (handle : String) : Option String :=
  ((branches clauses).find? fun b => b.handle == handle).map (·.label)

/-- Whether some branch has the handle. -/
def accepts (clauses : List Clause) (handle : String) : Bool :=
  (branches clauses).any fun b => b.handle == handle

theorem accepts_eq_isSome_labelAt? (clauses : List Clause) (handle : String) :
    accepts clauses handle = (labelAt? clauses handle).isSome := by
  rw [accepts, labelAt?, Option.isSome_map, Bool.eq_iff_iff, List.any_eq_true, List.find?_isSome]

end Journey.Condition
