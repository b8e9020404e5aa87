import Journey.Config.Stored
import Journey.Fresh

/-!
# Journey.Node.Basic -- blocks on the canvas

A node is a block with an identifier, a title, a place on the canvas, a status and counters that are
only shown, and the settings of its kind; the kind of a node is that of its settings.

A stored node is checked field by field once its kind is known.  A node whose kind is missing or
unknown is a fault as a whole; all other faults stand under the kind.  An identifier may be left out
or empty, and then a new one is drawn (`Node.identify`).
-/

namespace Journey

set_option autoImplicit false

/-- A place on the canvas. -/
structure Position where
  x : Float := 0.0
  y : Float := 0.0

/-- Counters of a running workflow, shown beside a node. -/
structure Counters where
  enrollmentCount : Option Int := none
  lastError : Option String := none
  extra : Fields := []

/-- A block on the canvas. -/
structure Node where
  id : String
  title : String := ""
  position : Position := {}
  status : NodeStatus := .draft
  counters : Option Counters := none
  config : Config

namespace Position

/-- The check of a stored place. -/
def decode (row : Fields) : Checked Position :=
  Position.mk
    <$> .field row (.word "x") .real 0.0
    <*> .field row (.word "y") .real 0.0

def document (p : Position) : Document := .object [("x", .float p.x), ("y", .float p.y)]

/-- Whether two places agree as numbers; an undefined coordinate agrees with none. -/
def agrees (p q : Position) : Bool := p.x == q.x && p.y == q.y

/-- The place moved by the same amount in both directions. -/
def shifted (p : Position) (amount : Float) : Position := ⟨p.x + amount, p.y + amount⟩

end Position

namespace Counters

def enrollmentCountKey : Key := ⟨"enrollmentCount", "enrollment_count"⟩
def lastErrorKey : Key := ⟨"lastError", "last_error"⟩

/-- The declared fields in their order. -/
def keys : List Key := [enrollmentCountKey, lastErrorKey]

/-- The check of stored counters. -/
def decode (row : Fields) : Checked Counters :=
  Counters.mk
    <$> .field row enrollmentCountKey (.orNull .whole) none
    <*> .field row lastErrorKey (.orNull .text) none
    <*> .valid (Key.unclaimed keys row)

def document (nulls : Nulls) (c : Counters) : Document :=
  nulls.object <| Fields.overlay
    [("enrollmentCount", .ofInt? c.enrollmentCount), ("lastError", .ofText? c.lastError)] c.extra

end Counters

namespace Node

/-- What the node does. -/
def kind (n : Node) : NodeKind := n.config.kind

/-- Whether the node is of a kind. -/
def isA (n : Node) (kind : NodeKind) : Bool := n.kind == kind

/-- The kind that a stored node names. -/
def storedKind? (row : Fields) : Option NodeKind :=
  match Fields.get? row "kind" with
  | some (.text s) => NodeKind.named? s
  | _ => none

/-- The check of the members of a stored node of a kind; its identifier may be empty. -/
def decodeAs (kind : NodeKind) (row : Fields) : Checked Node :=
  Node.mk
    <$> .field row (.word "id") .text ""
    <*> .field row (.word "title") .text ""
    <*> .field row (.word "position") (.object Position.decode) {}
    <*> .field row (.word "status") (.choice NodeStatus.named?) .draft
    <*> .field row (.word "meta") (.orNull (.object Counters.decode)) none
    <*> .field row (.word "config") (.object (Config.decode kind)) (Config.empty kind)

/-- The check of a stored node; its identifier may be empty. -/
def decode (d : Document) : Checked Node :=
  match d with
  | .object row =>
      match storedKind? row with
      | some kind => (decodeAs kind row).under kind.name
      | none => .fault
  | _ => .fault

/-- The node with a new identifier if it has none. -/
def identify (n : Node) : Fresh Node := do
  return { n with id := ← Fresh.orElse n.id (Fresh.nodeId n.kind.name) }

/-- The node as it is written. -/
def document (nulls : Nulls) (n : Node) : Document :=
  nulls.object
    [("id", .text n.id), ("title", .text n.title), ("position", n.position.document),
     ("status", .text n.status.name),
     ("meta", (n.counters.map (Counters.document nulls)).getD .null),
     ("kind", .text n.kind.name), ("config", n.config.document nulls)]

end Node

end Journey
