import Courier.Dict
import Courier.Event.Kind

/-!
# Events

An `Event` is the envelope for one occurrence on one object. It also carries the
sender's view of the server's rules: the version of a rule set and the ids of the rules
in it that apply. The two are a unit and `withRules` replaces both at once.

The `with…` functions each set one part of an event and leave the others alone.
-/

namespace Courier

/-- The envelope for one occurrence on one object. -/
structure Event where
  /-- The name of the object. -/
  name : String
  /-- The address of the object for people. -/
  url : String
  /-- What tells objects of one name apart. -/
  tags : Dict String
  kind : Kind
  severity : Severity
  /-- Who acted, if anyone. -/
  username : String
  message : String
  /-- Whether the object is muted, if the event says so. -/
  mute : Option Bool
  muteReason : String
  /-- The version of the rule set that `ruleIds` are from. -/
  rulesVersion : String
  /-- The rules that apply to the event. -/
  ruleIds : KeySet
deriving DecidableEq

namespace Event

/-- The event with a name and a kind, and nothing else set. -/
def bare (name : String) (kind : Kind) : Event where
  name := name
  url := ""
  tags := ∅
  kind := kind
  severity := .none
  username := ""
  message := ""
  mute := none
  muteReason := ""
  rulesVersion := ""
  ruleIds := ∅

/-- The event with an address. -/
def withUrl (e : Event) (url : String) : Event := { e with url }

/-- The event with a tag, in place of one with that key. -/
def withTag (e : Event) (key value : String) : Event :=
  { e with tags := e.tags.insert key value }

/-- The event with a severity. -/
def withSeverity (e : Event) (severity : Severity) : Event := { e with severity }

/-- The event with an acting user. -/
def withUsername (e : Event) (username : String) : Event := { e with username }

/-- The event with a message. -/
def withMessage (e : Event) (message : String) : Event := { e with message }

/-- The event with a mute flag and its reason, which may be empty. -/
def withMute (e : Event) (muted : Bool) (reason : String) : Event :=
  { e with mute := some muted, muteReason := reason }

/-- The event with a rule version and the ids that go with it. -/
def withRules (e : Event) (version : String) (ids : KeySet) : Event :=
  { e with rulesVersion := version, ruleIds := ids }

end Event

end Courier
