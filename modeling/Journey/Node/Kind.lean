/-!
# Journey.Node.Kind -- the kinds of blocks

A workflow is built from seven kinds of blocks.  One starts it, one ends it, three act on the
contact, and two decide which way the contact goes.  A block also carries a status that is shown and
has no effect.  Main statements: names are read back (`NodeKind.named?_name`,
`NodeStatus.named?_name`), and every kind is listed (`NodeKind.mem_all`).
-/

namespace Journey

set_option autoImplicit false

/-- What a block does. -/
inductive NodeKind where
  | trigger
  | sendEmail
  | wait
  | condition
  | split
  | webhook
  | exit
  deriving DecidableEq

namespace NodeKind

def name : NodeKind → String
  | .trigger => "trigger"
  | .sendEmail => "send_email"
  | .wait => "wait"
  | .condition => "condition"
  | .split => "split"
  | .webhook => "webhook"
  | .exit => "exit"

/-- Every kind, in the order in which they are listed. -/
def all : List NodeKind := [.trigger, .sendEmail, .wait, .condition, .split, .webhook, .exit]

def named? (s : String) : Option NodeKind := all.find? fun k => k.name == s

@[simp] theorem named?_name (k : NodeKind) : named? k.name = some k := by cases k <;> decide

theorem mem_all (k : NodeKind) : k ∈ all := by cases k <;> decide

end NodeKind

/-- What is shown about a block; nothing depends on it. -/
inductive NodeStatus where
  | draft
  | live
  | error
  deriving DecidableEq

namespace NodeStatus

def name : NodeStatus → String
  | .draft => "draft"
  | .live => "live"
  | .error => "error"

def all : List NodeStatus := [.draft, .live, .error]

def named? (s : String) : Option NodeStatus := all.find? fun x => x.name == s

@[simp] theorem named?_name (x : NodeStatus) : named? x.name = some x := by cases x <;> decide

end NodeStatus

end Journey
