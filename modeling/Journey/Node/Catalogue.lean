import Journey.Condition.Branch
import Journey.Config.Salvaged
import Journey.Node.Basic

/-!
# Journey.Node.Catalogue -- what the block library shows of each kind

Each kind of block has an entry in the block library: how it is called and drawn, whether the runner
can execute it, whether edges may enter it, and on which handles edges leave it.  The handles of a
condition block depend on its clauses; those of all other kinds are fixed.  An entry also says what
settings a new block of the kind has.

A catalogue is the set of kinds for which there is an entry.  The library has them all
(`missing_all`); a partial one reports what it lacks.
-/

namespace Journey

set_option autoImplicit false

/-- A handle on which edges may leave a block. -/
structure Outlet where
  handle : String
  label : String := ""
  description : String := ""
  deriving DecidableEq

/-- The entry of a kind in the block library. -/
structure Block where
  label : String
  description : String
  category : String
  icon : String
  /-- Whether the runner can execute blocks of the kind. -/
  runnable : Bool := true
  /-- Whether edges may enter blocks of the kind. -/
  acceptsInput : Bool := true
  outlets : List Outlet := [{ handle := "out" }]

/-- The handles of the two variants of a split. -/
def splitHandles : List String := ["a", "b"]

namespace NodeKind

/-- The entry of each kind. -/
def block : NodeKind → Block
  | .trigger =>
      { label := "Trigger", description := "Entry point for enrollment events.",
        category := "entry", icon := "play-circle", acceptsInput := false }
  | .sendEmail =>
      { label := "Send Email", description := "Send personalized email content.",
        category := "action", icon := "mail" }
  | .wait =>
      { label := "Wait", description := "Pause contacts for a delay window.",
        category := "action", icon := "pause-circle" }
  | .condition =>
      { label := "Condition", description := "Branch flow by behavior or attributes.",
        category := "logic", icon := "git-branch",
        outlets := [⟨Handle.ifBranch, "If", "First clause matched"⟩,
          ⟨Handle.elseBranch, "Else", "No clause matched"⟩] }
  | .split =>
      { label := "A/B Split", description := "Split traffic for A/B testing.",
        category := "logic", icon := "shuffle", runnable := false,
        outlets := [⟨"a", "Variant A", ""⟩, ⟨"b", "Variant B", ""⟩] }
  | .webhook =>
      { label := "Webhook", description := "Notify external systems in real time.",
        category := "action", icon := "webhook", runnable := false }
  | .exit =>
      { label := "Exit", description := "End workflow execution.",
        category := "entry", icon := "bell-ring", outlets := [] }

/-- Whether edges may leave blocks of the kind. -/
def hasOutput (k : NodeKind) : Bool := !k.block.outlets.isEmpty

/-- The tokens that a new message is personalised with. -/
def standardTokens : List String :=
  ["\x7bfirst_name\x7d", "\x7bcompany\x7d", "\x7bsender_name\x7d"]

/-- The settings of a new block of each kind. -/
def standardConfig : NodeKind → Config
  | .trigger => .trigger {}
  | .sendEmail => .sendEmail
      { subject := "Quick question about \x7bcompany\x7d"
        body := "Hi \x7bfirst_name\x7d,\n\nI wanted to follow up on \x7bcompany\x7d.\n\nBest,\n\x7bsender_name\x7d"
        personalizationTokens := standardTokens }
  | .wait => .wait
      { duration := some 1.0, randomMaxMinutes := some 0
        timeWindowStart := some "09:00", timeWindowEnd := some "18:00" }
  | .condition => .condition {}
  | .split => .split {}
  | .webhook => .webhook
      { url := "https://api.example.com/webhook"
        payloadTemplate := some "\x7b\"email\":\"\x7bemail\x7d\"\x7d" }
  | .exit => .exit {}

@[simp] theorem kind_standardConfig (k : NodeKind) : k.standardConfig.kind = k := by
  cases k <;> rfl

end NodeKind

namespace Config

/-- The canonical clauses of condition settings, none for all others. -/
def clauses : Config → List Clause
  | .condition c => c.canonical
  | _ => []

/-- What is converted when the clauses of condition settings are read, nothing for all others. -/
def conversions : Config → List Conversion
  | .condition c => c.conversions
  | _ => []

/-- The handles on which edges leave a block with the settings. -/
def outlets : Config → List Outlet
  | .condition c => (Condition.branches c.canonical).map fun b => ⟨b.handle, b.label, ""⟩
  | c => c.kind.block.outlets

/-- The label of an edge that leaves a block with the settings on a handle. -/
def edgeLabel? (c : Config) (handle : Option String) : Option String :=
  match c, handle with
  | .condition c, some h => if h.isEmpty then none else Condition.labelAt? c.canonical h
  | .split _, some h =>
      if h = "a" then some "Variant A" else if h = "b" then some "Variant B" else none
  | _, _ => none

end Config

namespace Outlet

def document (p : Outlet) : Document :=
  .object [("id", .text p.handle), ("label", .text p.label), ("description", .text p.description)]

end Outlet

/-- An entry as it is shown in the block library, with the outlets that the settings give if there
are any. -/
def NodeKind.entry (k : NodeKind) (settings : Option Config := none) : Document :=
  let b := k.block
  let outlets := (settings.map Config.outlets).getD b.outlets
  .object
    [("node_type", .text k.name), ("label", .text b.label), ("description", .text b.description),
     ("category", .text b.category), ("icon", .text b.icon), ("supports_runner", .bool b.runnable),
     ("accepts_input", .bool b.acceptsInput),
     ("output_ports", .list (outlets.map Outlet.document))]

/-- The kinds for which there is an entry. -/
abbrev Catalogue := List NodeKind

namespace Catalogue

/-- The kinds with an entry, in the order in which kinds are listed. -/
def listed (c : Catalogue) : List NodeKind := NodeKind.all.filter c.contains

/-- The kinds without an entry, in the order in which kinds are listed. -/
def missing (c : Catalogue) : List NodeKind := NodeKind.all.filter fun k => !c.contains k

/-- What is said of an incomplete catalogue. -/
def incompleteMessage (missing : List NodeKind) : String :=
  "NodeRegistry does not handle node kind(s): " ++ ", ".intercalate (missing.map NodeKind.name)

theorem missing_all : missing NodeKind.all = [] := by decide

end Catalogue

end Journey
