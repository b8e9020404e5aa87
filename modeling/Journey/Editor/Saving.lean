import Journey.Editor.Basic
import Journey.Review

/-!
# Journey.Editor.Saving -- handing the workflow on to be stored

What is stored is the workflow as a document together with the flow it gives, what was found on the
way to it, and whether the review passes.  It is handed to a store once.  When the store accepts it
the editor has nothing more to save and keeps the time; when it does not, the save is refused with
its reason and the editor stays as it is.
-/

namespace Journey

set_option autoImplicit false

/-- What is handed on to be stored. -/
structure SaveSnapshot where
  workflow : Workflow
  compiled : Compiled
  review : List ReviewItem

namespace SaveSnapshot

/-- Whether every item of the review passes. -/
def passes (s : SaveSnapshot) : Bool := s.review.all (·.passed)

def document (s : SaveSnapshot) : Document :=
  .object
    [("graph", s.workflow.document), ("compiledFlow", .list s.compiled.steps.documents),
     ("compileErrors", .list (s.compiled.errors.map .text)), ("checklistPass", .bool s.passes)]

end SaveSnapshot

namespace Editor

/-- What would be stored now. -/
def saveSnapshot (e : Editor) : Except Refusal SaveSnapshot := do
  let compiled ← Overlong.orRefuse (e.workflow.tryCompile e.limits.compileSteps)
  let review ← Overlong.orRefuse (e.workflow.tryReview compiled)
  return { workflow := e.workflow, compiled, review }

/-- The editor when the workflow has been stored, at the given time or else now. -/
def markSaved (e : Editor) (stated : Option Instant) (now : Instant) : Editor :=
  { e with dirty := false, savedAt := some (stated.getD now) }

/-- The workflow is handed to a store, which may fail with a reason. -/
def save (e : Editor) (store : SaveSnapshot → Except String Unit) (now : Instant) :
    Except Refusal (Editor × SaveSnapshot) := do
  let s ← e.saveSnapshot
  match store s with
  | .ok () => return (e.markSaved none now, s)
  | .error cause => throw (.notStored cause)

end Editor

end Journey
