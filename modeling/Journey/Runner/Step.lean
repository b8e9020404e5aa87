import Journey.Config.Basic
import Journey.Document.Display
import Journey.Fresh
import Journey.Text.Search

/-!
# Journey.Runner.Step -- what the runner executes

The runner knows no graph.  It is given a flow, a list of steps, and takes them in their order: it
sends a message, pauses, tests a condition and goes on or ends by the outcome, or stops.  It tests
four things only: whether the contact has replied, and whether the domain of the address, the company
or the job title holds a text.

A step that pauses for a length that was left open is written with the whole number one.  `Flow.run`
is the reading of a flow that everything else is compared with: the steps that are executed for
given outcomes of the conditions.
-/

namespace Journey

set_option autoImplicit false

/-- What the runner can test. -/
inductive RunnerRule where
  | hasReplied
  | emailDomainContains
  | companyContains
  | jobTitleContains
  deriving DecidableEq

namespace RunnerRule

def name : RunnerRule → String
  | .hasReplied => "has_replied"
  | .emailDomainContains => "email_domain_contains"
  | .companyContains => "company_contains"
  | .jobTitleContains => "job_title_contains"

def all : List RunnerRule := [.hasReplied, .emailDomainContains, .companyContains, .jobTitleContains]

def named? (s : String) : Option RunnerRule := all.find? fun r => r.name == s

@[simp] theorem named?_name (r : RunnerRule) : named? r.name = some r := by cases r <;> decide

/-- The clause of a condition block that tests the same, or the nearest thing to it. -/
def clause (r : RunnerRule) (value : String) : Clause :=
  match r with
  | .hasReplied => { rule := .emailOpened, value }
  | .emailDomainContains =>
      { rule := .userProperty, propertyKey := "email_domain", comparator := .contains, value }
  | .companyContains =>
      { rule := .userProperty, propertyKey := "company", comparator := .contains, value }
  | .jobTitleContains =>
      { rule := .userProperty, propertyKey := "job_title", comparator := .contains, value }

/-- The words in a property key by which the runner recognises what it can test, in the order in
which they are looked for. -/
def keywords : List (String × RunnerRule) :=
  [("domain", .emailDomainContains), ("company", .companyContains), ("job", .jobTitleContains)]

/-- What the runner tests for a property key in lower case. -/
def forKey? (key : String) : Option RunnerRule :=
  (keywords.find? fun k => Text.contains key k.1).map (·.2)

end RunnerRule

/-- What follows a test: the next step, or the end. -/
inductive Verdict where
  | goOn
  | halt
  deriving DecidableEq

namespace Verdict

def name : Verdict → String
  | .goOn => "continue"
  | .halt => "stop"

end Verdict

/-- A message as the runner is told to send it. -/
structure Message where
  senderConfigId : String
  templateId : String
  subject : String
  body : String
  threadWithPrevious : Bool

/-- What a step does. -/
inductive Action where
  | sendEmail (message : Message)
  | wait (duration : Option Float) (unit : WaitUnit)
  | condition (rule : RunnerRule) (value : String) (ifTrue ifFalse : Verdict)
  | stop

/-- One instruction of a flow. -/
structure Step where
  id : String
  name : String
  action : Action

namespace Action

/-- The name of what a step does. -/
def typeName : Action → String
  | .sendEmail _ => "send_email"
  | .wait .. => "wait"
  | .condition .. => "condition"
  | .stop => "stop"

/-- The length of a pause as it is written. -/
def durationDocument : Option Float → Document
  | some x => .float x
  | none => .int 1

/-- The members of a step that say how it is done. -/
def fields : Action → Fields
  | .sendEmail m =>
      [("sender_config_id", .text m.senderConfigId), ("template_id", .text m.templateId),
       ("subject", .text m.subject), ("body", .text m.body),
       ("thread_with_previous", .bool m.threadWithPrevious)]
  | .wait duration unit => [("duration", durationDocument duration), ("unit", .text unit.name)]
  | .condition rule value ifTrue ifFalse =>
      [("rule", .text rule.name), ("value", .text value), ("if_true", .text ifTrue.name),
       ("if_false", .text ifFalse.name)]
  | .stop => []

def isStop : Action → Bool
  | .stop => true
  | _ => false

def isCondition : Action → Bool
  | .condition .. => true
  | _ => false

end Action

namespace Step

/-- The step that ends a flow. -/
def stop (id : String) : Step := { id, name := "Stop", action := .stop }

def document (s : Step) : Document :=
  .object
    [("id", .text s.id), ("name", .text s.name), ("type", .text s.action.typeName),
     ("config", .object s.action.fields)]

end Step

/-- The steps of a flow in their order. -/
abbrev Flow := List Step

namespace Flow

def documents (f : Flow) : List Document := f.map Step.document

/-- The identifiers of the steps that are executed, when the test of the step with an identifier has
the given outcome. -/
def run (outcome : String → Bool) : Flow → List String
  | [] => []
  | s :: rest =>
      match s.action with
      | .stop => []
      | .condition _ _ ifTrue ifFalse =>
          s.id :: (match if outcome s.id then ifTrue else ifFalse with
            | .goOn => run outcome rest
            | .halt => [])
      | _ => s.id :: run outcome rest

end Flow

end Journey
