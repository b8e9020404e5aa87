import Journey.Config.Basic

/-!
# Journey.Config.Stored -- settings in documents

Settings are checked field by field (`Config.decode`) and written field by field (`Config.row`); the
declared fields come in their order and the foreign members after them.  A foreign member that has
the other spelling of a declared field stays foreign as long as the written spelling is used; where
the fields are listed by their other spelling it takes their place.

Main statement: what is decoded for a kind is of that kind (`kind_of_decode`).
-/

namespace Journey

set_option autoImplicit false

namespace TriggerConfig

def triggerTypeKey : Key := ⟨"triggerType", "trigger_type"⟩
def listIdKey : Key := ⟨"listId", "list_id"⟩
def eventNameKey : Key := ⟨"eventName", "event_name"⟩

/-- The declared fields in their order. -/
def keys : List Key := [triggerTypeKey, listIdKey, eventNameKey]

/-- The check of stored settings. -/
def decode (row : Fields) : Checked TriggerConfig :=
  TriggerConfig.mk
    <$> .field row triggerTypeKey (.choice TriggerType.named?) .listJoined
    <*> .field row listIdKey (.orNull .text) none
    <*> .field row eventNameKey (.orNull .text) none
    <*> .valid (Key.unclaimed keys row)

/-- The declared members in the given spelling. -/
def row (spell : Key → String) (c : TriggerConfig) : Fields :=
  [(spell triggerTypeKey, .text c.triggerType.name), (spell listIdKey, .ofText? c.listId),
   (spell eventNameKey, .ofText? c.eventName)]

end TriggerConfig

namespace EmailConfig

def subjectKey : Key := .word "subject"
def bodyKey : Key := .word "body"
def senderConfigIdKey : Key := ⟨"senderConfigId", "sender_config_id"⟩
def templateIdKey : Key := ⟨"templateId", "template_id"⟩
def personalizationTokensKey : Key := ⟨"personalizationTokens", "personalization_tokens"⟩
def threadWithPreviousKey : Key := ⟨"threadWithPrevious", "thread_with_previous"⟩

/-- The declared fields in their order. -/
def keys : List Key :=
  [subjectKey, bodyKey, senderConfigIdKey, templateIdKey, personalizationTokensKey,
   threadWithPreviousKey]

/-- The check of stored settings. -/
def decode (row : Fields) : Checked EmailConfig :=
  EmailConfig.mk
    <$> .field row subjectKey .text ""
    <*> .field row bodyKey .text ""
    <*> .field row senderConfigIdKey (.orNull .text) none
    <*> .field row templateIdKey (.orNull .text) none
    <*> .field row personalizationTokensKey (.list .text) []
    <*> .field row threadWithPreviousKey .flag true
    <*> .valid (Key.unclaimed keys row)

/-- The declared members in the given spelling. -/
def row (spell : Key → String) (c : EmailConfig) : Fields :=
  [(spell subjectKey, .text c.subject), (spell bodyKey, .text c.body),
   (spell senderConfigIdKey, .ofText? c.senderConfigId), (spell templateIdKey, .ofText? c.templateId),
   (spell personalizationTokensKey, .list (c.personalizationTokens.map .text)),
   (spell threadWithPreviousKey, .bool c.threadWithPrevious)]

end EmailConfig

namespace WaitConfig

def durationKey : Key := .word "duration"
def unitKey : Key := .word "unit"
def timeWindowStartKey : Key := ⟨"timeWindowStart", "time_window_start"⟩
def timeWindowEndKey : Key := ⟨"timeWindowEnd", "time_window_end"⟩
def randomizedKey : Key := .word "randomized"
def randomMaxMinutesKey : Key := ⟨"randomMaxMinutes", "random_max_minutes"⟩

/-- The declared fields in their order. -/
def keys : List Key :=
  [durationKey, unitKey, timeWindowStartKey, timeWindowEndKey, randomizedKey, randomMaxMinutesKey]

/-- A stated length. -/
def stated (d : Document) : Checked (Option Float) := .map some (Checked.real d)

/-- The check of stored settings. -/
def decode (row : Fields) : Checked WaitConfig :=
  WaitConfig.mk
    <$> .field row durationKey stated none
    <*> .field row unitKey (.choice WaitUnit.named?) .days
    <*> .field row timeWindowStartKey (.orNull .text) none
    <*> .field row timeWindowEndKey (.orNull .text) none
    <*> .field row randomizedKey .flag false
    <*> .field row randomMaxMinutesKey (.orNull .whole) none
    <*> .valid (Key.unclaimed keys row)

/-- The declared members in the given spelling; an open length is written out. -/
def row (spell : Key → String) (c : WaitConfig) : Fields :=
  [(spell durationKey, .float c.length), (spell unitKey, .text c.unit.name),
   (spell timeWindowStartKey, .ofText? c.timeWindowStart),
   (spell timeWindowEndKey, .ofText? c.timeWindowEnd), (spell randomizedKey, .bool c.randomized),
   (spell randomMaxMinutesKey, .ofInt? c.randomMaxMinutes)]

end WaitConfig

namespace SplitConfig

def percentageAKey : Key := ⟨"percentageA", "percentage_a"⟩
def percentageBKey : Key := ⟨"percentageB", "percentage_b"⟩

/-- The declared fields in their order. -/
def keys : List Key := [percentageAKey, percentageBKey]

/-- The check of stored settings. -/
def decode (row : Fields) : Checked SplitConfig :=
  SplitConfig.mk
    <$> .field row percentageAKey .real 50.0
    <*> .field row percentageBKey .real 50.0
    <*> .valid (Key.unclaimed keys row)

/-- The declared members in the given spelling. -/
def row (spell : Key → String) (c : SplitConfig) : Fields :=
  [(spell percentageAKey, .float c.percentageA), (spell percentageBKey, .float c.percentageB)]

end SplitConfig

namespace WebhookConfig

def urlKey : Key := .word "url"
def methodKey : Key := .word "method"
def payloadTemplateKey : Key := ⟨"payloadTemplate", "payload_template"⟩

/-- The declared fields in their order. -/
def keys : List Key := [urlKey, methodKey, payloadTemplateKey]

/-- The check of stored settings. -/
def decode (row : Fields) : Checked WebhookConfig :=
  WebhookConfig.mk
    <$> .field row urlKey .text ""
    <*> .field row methodKey (.choice CallMethod.named?) .post
    <*> .field row payloadTemplateKey (.orNull .text) none
    <*> .valid (Key.unclaimed keys row)

/-- The declared members in the given spelling. -/
def row (spell : Key → String) (c : WebhookConfig) : Fields :=
  [(spell urlKey, .text c.url), (spell methodKey, .text c.method.name),
   (spell payloadTemplateKey, .ofText? c.payloadTemplate)]

end WebhookConfig

namespace ExitConfig

def reasonKey : Key := .word "reason"

/-- The declared fields in their order. -/
def keys : List Key := [reasonKey]

/-- The check of stored settings. -/
def decode (row : Fields) : Checked ExitConfig :=
  ExitConfig.mk
    <$> .field row reasonKey (.choice ExitReason.named?) .completed
    <*> .valid (Key.unclaimed keys row)

/-- The declared members in the given spelling. -/
def row (spell : Key → String) (c : ExitConfig) : Fields := [(spell reasonKey, .text c.reason.name)]

end ExitConfig

namespace Config

/-- The declared fields of a kind in their order. -/
def keys : NodeKind → List Key
  | .trigger => TriggerConfig.keys
  | .sendEmail => EmailConfig.keys
  | .wait => WaitConfig.keys
  | .condition => ConditionConfig.keys
  | .split => SplitConfig.keys
  | .webhook => WebhookConfig.keys
  | .exit => ExitConfig.keys

/-- The check of stored settings of a kind. -/
def decode (kind : NodeKind) (row : Fields) : Checked Config :=
  match kind with
  | .trigger => .trigger <$> TriggerConfig.decode row
  | .sendEmail => .sendEmail <$> EmailConfig.decode row
  | .wait => .wait <$> WaitConfig.decode row
  | .condition => .condition <$> ConditionConfig.decode row
  | .split => .split <$> SplitConfig.decode row
  | .webhook => .webhook <$> WebhookConfig.decode row
  | .exit => .exit <$> ExitConfig.decode row

/-- The members of settings: the declared ones in the given spelling, then the foreign ones. -/
def row (spell : Key → String) (nulls : Nulls) : Config → Fields
  | .trigger c => Fields.overlay (c.row spell) c.extra
  | .sendEmail c => Fields.overlay (c.row spell) c.extra
  | .wait c => Fields.overlay (c.row spell) c.extra
  | .condition c => c.row spell nulls
  | .split c => Fields.overlay (c.row spell) c.extra
  | .webhook c => Fields.overlay (c.row spell) c.extra
  | .exit c => Fields.overlay (c.row spell) c.extra

/-- The settings as they are written. -/
def document (nulls : Nulls) (c : Config) : Document := nulls.object (c.row Key.written nulls)

theorem kind_of_decode {kind : NodeKind} {row : Fields} {c : Config}
    (h : decode kind row = .valid c) : c.kind = kind := by
  cases kind <;>
    (simp only [decode, Functor.map, Checked.map_eq_valid_iff] at h
     obtain ⟨_, _, rfl⟩ := h
     rfl)

end Config

end Journey
