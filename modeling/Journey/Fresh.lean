/-!
# Journey.Fresh -- new identifiers

New workflows, nodes and edges get identifiers that end in a suffix nobody has used before.  Where
suffixes come from is not the business of this library: a source of identifiers is any sequence of
suffixes together with the number of those already drawn, and a computation that draws from it is a
`Fresh` computation.  The caller promises that the suffixes of the sequence differ from each other
and from everything in its documents.  Main statement: each draw moves the source on by one
(`suffix_run`).
-/

namespace Journey

set_option autoImplicit false

/-- A sequence of suffixes, and how many of them are used. -/
structure IdSource where
  suffix : Nat → String
  used : Nat := 0

/-- A computation that may draw new identifiers. -/
abbrev Fresh := StateM IdSource

namespace Fresh

/-- The next suffix. -/
def suffix : Fresh String := fun s => (s.suffix s.used, { s with used := s.used + 1 })

theorem suffix_run (s : IdSource) :
    suffix.run s = (s.suffix s.used, { s with used := s.used + 1 }) := rfl

/-- The identifier of a new workflow. -/
def workflowId : Fresh String := return "wf_" ++ (← suffix)

/-- The identifier of a new node of a kind. -/
def nodeId (kind : String) : Fresh String := return kind ++ "_" ++ (← suffix)

/-- The identifier of a new edge. -/
def edgeId (source target : String) : Fresh String :=
  return "edge_" ++ source ++ "_" ++ target ++ "_" ++ (← suffix)

/-- The given identifier, or a new one if it is empty. -/
def orElse (given : String) (new : Fresh String) : Fresh String :=
  if given.isEmpty then new else pure given

end Fresh

end Journey
