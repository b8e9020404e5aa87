import Journey.Checked.Record
import Journey.Document.Display

/-!
# Journey.Condition.Contact -- what is known of a contact

A condition is decided on what is known of a contact: named properties of any value, whether the
last message was opened and clicked, the tags it carries and the custom events it has caused.  The
properties keep their order, because a name that is not found as it is written is looked up without
regard to case, and then the first match counts.
-/

namespace Journey

set_option autoImplicit false

/-- What is known of a contact. -/
structure Contact where
  properties : Fields := []
  opened : Bool := false
  clicked : Bool := false
  tags : List String := []
  events : List String := []

namespace Contact

/-- The check of a stored contact. -/
def decode (row : Fields) : Checked Contact :=
  Contact.mk
    <$> .field row ⟨"userProperties", "user_properties"⟩ (.object .valid) []
    <*> .field row (.word "opened") .flag false
    <*> .field row (.word "clicked") .flag false
    <*> .field row (.word "tags") (.list .text) []
    <*> .field row ⟨"customEvents", "custom_events"⟩ (.list .text) []

end Contact

end Journey
