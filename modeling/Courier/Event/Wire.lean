import Courier.Event.Basic
import Courier.Json.Record

/-!
# Events in JSON

`Event.toValue` writes the fields in a fixed order. The severity is left out when it is
absent, the mute flag when it is not set, and the reason when it is empty; an unknown
kind is written as `null`. `Event.decode` reads an event back and gives the fields that
were left out the values that leave them out.
-/

namespace Courier.Event

/-! ## Writing -/

/-- A set of texts as an array. -/
def idsValue (ids : KeySet) : Json.Value :=
  .arr (ids.toList.map .str)

/-- A dictionary of texts as an object. -/
def tagsValue (tags : Dict String) : Json.Value :=
  .obj (tags.entries.map fun e => (e.1, .str e.2))

/-- An event as a JSON object. -/
def toValue (e : Event) : Json.Value :=
  .obj <|
    [("name", .str e.name), ("url", .str e.url), ("tags", tagsValue e.tags),
      ("type", kinds.toValue e.kind)]
    ++ (if e.severity = .none then [] else [("severity", severities.toValue e.severity)])
    ++ [("username", .str e.username), ("message", .str e.message)]
    ++ (match e.mute with | none => [] | some b => [("mute", .bool b)])
    ++ (if e.muteReason = "" then [] else [("mute_reason", .str e.muteReason)])
    ++ [("rules_version", .str e.rulesVersion), ("rule_ids", idsValue e.ruleIds)]

/-- The JSON text of an event. -/
def toJson (e : Event) : String :=
  e.toValue.toText

/-! ## Reading -/

/-- The fields of an event. -/
inductive Field where
  | name | url | tags | kind | severity | username | message | mute | muteReason
  | rulesVersion | ruleIds
deriving DecidableEq, Repr

/-- The fields in the order in which they are written. -/
def Field.all : List Field :=
  [.name, .url, .tags, .kind, .severity, .username, .message, .mute, .muteReason,
    .rulesVersion, .ruleIds]

/-- The name of a field in JSON. -/
def Field.label : Field → String
  | .name => "name"
  | .url => "url"
  | .tags => "tags"
  | .kind => "type"
  | .severity => "severity"
  | .username => "username"
  | .message => "message"
  | .mute => "mute"
  | .muteReason => "mute_reason"
  | .rulesVersion => "rules_version"
  | .ruleIds => "rule_ids"

/-- Whether an array of the fields may end before the field. -/
def Field.omissible : Field → Bool
  | .tags | .severity | .mute | .muteReason | .ruleIds => true
  | _ => false

/-- The fields of an event that have been read. -/
structure Draft where
  name : Option String
  url : Option String
  tags : Option (Dict String)
  kind : Option Kind
  severity : Option Severity
  username : Option String
  message : Option String
  mute : Option (Option Bool)
  muteReason : Option String
  rulesVersion : Option String
  ruleIds : Option KeySet
deriving DecidableEq

namespace Draft

/-- No field yet. -/
def blank : Draft :=
  ⟨none, none, none, none, none, none, none, none, none, none, none⟩

/-- Whether a field has been read. -/
def filled (f : Field) (d : Draft) : Bool :=
  match f with
  | .name => d.name.isSome
  | .url => d.url.isSome
  | .tags => d.tags.isSome
  | .kind => d.kind.isSome
  | .severity => d.severity.isSome
  | .username => d.username.isSome
  | .message => d.message.isSome
  | .mute => d.mute.isSome
  | .muteReason => d.muteReason.isSome
  | .rulesVersion => d.rulesVersion.isSome
  | .ruleIds => d.ruleIds.isSome

/-- The draft with one more field, as a tree holds it. -/
def fill (f : Field) (t : Json.Tree) (d : Draft) : Except Json.Fault Draft :=
  match f with
  | .name => (Json.Decode.text t).map fun v => { d with name := some v }
  | .url => (Json.Decode.text t).map fun v => { d with url := some v }
  | .tags => (Json.Decode.dict Json.Decode.text t).map fun v => { d with tags := some v }
  | .kind => (kinds.decode t).map fun v => { d with kind := some v }
  | .severity => (severities.decode t).map fun v => { d with severity := some v }
  | .username => (Json.Decode.text t).map fun v => { d with username := some v }
  | .message => (Json.Decode.text t).map fun v => { d with message := some v }
  | .mute => (Json.Decode.optional Json.Decode.flag t).map fun v => { d with mute := some v }
  | .muteReason => (Json.Decode.text t).map fun v => { d with muteReason := some v }
  | .rulesVersion => (Json.Decode.text t).map fun v => { d with rulesVersion := some v }
  | .ruleIds => (Json.Decode.keySet t).map fun v => { d with ruleIds := some v }

/-- The event of a draft, or the first field that it lacks and cannot do without. -/
def finish (d : Draft) : Except Field Event :=
  match d.name, d.url, d.username, d.message, d.rulesVersion with
  | none, _, _, _, _ => .error .name
  | _, none, _, _, _ => .error .url
  | _, _, none, _, _ => .error .username
  | _, _, _, none, _ => .error .message
  | _, _, _, _, none => .error .rulesVersion
  | some name, some url, some username, some message, some rulesVersion =>
    .ok {
      name, url, username, message, rulesVersion
      tags := d.tags.getD ∅
      kind := d.kind.getD .unknown
      severity := d.severity.getD .none
      mute := d.mute.getD none
      muteReason := d.muteReason.getD ""
      ruleIds := d.ruleIds.getD ∅ }

end Draft

/-- How an event is read. -/
def record : Json.Record Field Draft Event where
  name := "Event"
  fields := Field.all
  label := Field.label
  omissible := Field.omissible
  blank := Draft.blank
  filled := Draft.filled
  fill := Draft.fill
  finish := Draft.finish

/-- The event that a tree holds. -/
def decode : Json.Decoder Event :=
  record.decode

/-- The event whose JSON text is given as bytes. -/
def ofJson (bytes : List UInt8) : Except Json.Fault Event :=
  Json.decode decode bytes

end Courier.Event
