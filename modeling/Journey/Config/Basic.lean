import Journey.Condition.Clause
import Journey.Node.Kind

/-!
# Journey.Config.Basic -- the settings of each kind of block

Every kind of block has settings of its own.  Their fields have defaults, so that settings can be
left out altogether, and members of a stored object that are not declared are kept.  Settings know
their kind (`Config.kind`).

The length of a pause may be left open, which counts as one unit: a pause of open length is written
out like one of length one, and the difference is seen only where the length is handed on to a
runner.
-/

namespace Journey

set_option autoImplicit false

/-- What starts a workflow. -/
inductive TriggerType where
  | listJoined
  | manual
  | customEvent
  deriving DecidableEq

namespace TriggerType

def name : TriggerType → String
  | .listJoined => "list_joined"
  | .manual => "manual"
  | .customEvent => "custom_event"

def all : List TriggerType := [.listJoined, .manual, .customEvent]

def named? (s : String) : Option TriggerType := all.find? fun x => x.name == s

@[simp] theorem named?_name (x : TriggerType) : named? x.name = some x := by cases x <;> decide

end TriggerType

/-- The unit of a pause. -/
inductive WaitUnit where
  | minutes
  | hours
  | days
  deriving DecidableEq

namespace WaitUnit

def name : WaitUnit → String
  | .minutes => "minutes"
  | .hours => "hours"
  | .days => "days"

def all : List WaitUnit := [.minutes, .hours, .days]

def named? (s : String) : Option WaitUnit := all.find? fun x => x.name == s

@[simp] theorem named?_name (x : WaitUnit) : named? x.name = some x := by cases x <;> decide

end WaitUnit

/-- How a web address is called. -/
inductive CallMethod where
  | get
  | post
  deriving DecidableEq

namespace CallMethod

def name : CallMethod → String
  | .get => "GET"
  | .post => "POST"

def all : List CallMethod := [.get, .post]

def named? (s : String) : Option CallMethod := all.find? fun x => x.name == s

@[simp] theorem named?_name (x : CallMethod) : named? x.name = some x := by cases x <;> decide

end CallMethod

/-- Why a workflow ends. -/
inductive ExitReason where
  | completed
  | conditionMet
  | manual
  deriving DecidableEq

namespace ExitReason

def name : ExitReason → String
  | .completed => "completed"
  | .conditionMet => "condition_met"
  | .manual => "manual"

def all : List ExitReason := [.completed, .conditionMet, .manual]

def named? (s : String) : Option ExitReason := all.find? fun x => x.name == s

@[simp] theorem named?_name (x : ExitReason) : named? x.name = some x := by cases x <;> decide

end ExitReason

structure TriggerConfig where
  triggerType : TriggerType := .listJoined
  listId : Option String := none
  eventName : Option String := none
  extra : Fields := []

structure EmailConfig where
  subject : String := ""
  body : String := ""
  senderConfigId : Option String := none
  templateId : Option String := none
  personalizationTokens : List String := []
  threadWithPrevious : Bool := true
  extra : Fields := []

structure WaitConfig where
  /-- The length of the pause; left open, one unit. -/
  duration : Option Float := none
  unit : WaitUnit := .days
  timeWindowStart : Option String := none
  timeWindowEnd : Option String := none
  randomized : Bool := false
  randomMaxMinutes : Option Int := none
  extra : Fields := []

structure SplitConfig where
  percentageA : Float := 50.0
  percentageB : Float := 50.0
  extra : Fields := []

structure WebhookConfig where
  url : String := ""
  method : CallMethod := .post
  payloadTemplate : Option String := none
  extra : Fields := []

structure ExitConfig where
  reason : ExitReason := .completed
  extra : Fields := []

/-- The settings of a block. -/
inductive Config where
  | trigger (c : TriggerConfig)
  | sendEmail (c : EmailConfig)
  | wait (c : WaitConfig)
  | condition (c : ConditionConfig)
  | split (c : SplitConfig)
  | webhook (c : WebhookConfig)
  | exit (c : ExitConfig)

namespace Config

/-- The kind of block that the settings are for. -/
def kind : Config → NodeKind
  | .trigger _ => .trigger
  | .sendEmail _ => .sendEmail
  | .wait _ => .wait
  | .condition _ => .condition
  | .split _ => .split
  | .webhook _ => .webhook
  | .exit _ => .exit

/-- The settings of a kind with every field at its default. -/
def empty : NodeKind → Config
  | .trigger => .trigger {}
  | .sendEmail => .sendEmail {}
  | .wait => .wait {}
  | .condition => .condition {}
  | .split => .split {}
  | .webhook => .webhook {}
  | .exit => .exit {}

@[simp] theorem kind_empty (k : NodeKind) : (empty k).kind = k := by cases k <;> rfl

end Config

/-- The length of the pause with the open length filled in. -/
def WaitConfig.length (c : WaitConfig) : Float := c.duration.getD 1.0

end Journey
