import Courier.Event.Wire
import Courier.Store.Cell

/-!
# Events as rows

`Row.ofEvent` is the row of an event, `Row.toStored` reads the event of a row back. An
insertion has a list of columns and a list of fields, which go together by their places. The
tags and rule ids are JSON columns, so their shape is checked on reading; the absent kind
and the absent severity are nulls.
-/

namespace Courier.Store

/-- A recorded event. -/
structure StoredEvent where
  id : EventId
  occurredAt : Timestamp
  recordedAt : Timestamp
  event : Event
deriving DecidableEq

/-- Why a row holds no event. -/
inductive RowError where
  /-- A field cannot be read. -/
  | field (name : String) (fault : FieldFault)
  /-- The kind or the severity cannot be read. -/
  | token (name : String) (id : EventId) (fault : FieldFault)
  /-- The JSON value of a field has the wrong shape. -/
  | shape (name : String) (id : EventId) (fault : Json.Fault)
deriving DecidableEq, Repr

namespace RowError

/-- The wording of what was being done, where it has one. -/
def message? : RowError → Option String
  | .field .. => none
  | .token name id _ | .shape name id _ => some ("decode " ++ name ++ " event_id=" ++ id.text)

/-- The column at fault. -/
def column : RowError → String
  | .field name _ | .token name _ _ | .shape name _ _ => name

/-- The wording of what lies behind it. -/
def reason : RowError → String
  | .field _ fault | .token _ _ fault => fault.message
  | .shape _ _ fault => fault.message

end RowError

/-! ## Shapes of JSON columns -/

mutual

/-- The tree of a value. -/
def treeOf : Json.Value → Json.Tree
  | .null => .null
  | .bool b => .bool b
  | .num n => .num (some n)
  | .str s => .str (some s)
  | .arr items => .arr (treesOf items) true
  | .obj members => .obj (memberTreesOf members) true

/-- The trees of a list of values. -/
def treesOf : List Json.Value → List Json.Tree
  | [] => []
  | v :: rest => treeOf v :: treesOf rest

/-- The members of an object with their trees. -/
def memberTreesOf : List (String × Json.Value) → List (Option String × Json.Tree)
  | [] => []
  | (k, v) :: rest => (some k, treeOf v) :: memberTreesOf rest

end

/-- The tags that a JSON value holds. -/
def tagsOf (v : Json.Value) : Except Json.Fault (Dict String) :=
  Json.Decode.dict Json.Decode.text (treeOf v)

/-- The rule ids that a JSON value holds. -/
def ruleIdsOf (v : Json.Value) : Except Json.Fault KeySet :=
  Json.Decode.keySet (treeOf v)

namespace Row

/-! ## Writing -/

/-- A field of a text column. -/
def textField (s : String) : Field := ⟨.text, .text (Utf8.ofString s)⟩

/-- A field of a text column that may be null. -/
def tokenField (t : Option String) : Field :=
  ⟨.text, t.elim .null fun s => .text (Utf8.ofString s)⟩

/-- The columns that an insertion names, in order. -/
def insertColumns : List String :=
  ["event_id", "occurred_at", "name", "url", "tags", "type", "severity", "username", "message",
    "mute", "mute_reason", "rules_version", "rule_ids"]

/-- The fields that an insertion binds, in order. -/
def insertFields (id : EventId) (occurredAt : Timestamp) (e : Event) : List Field := [
  ⟨⟨"UUID"⟩, .id id⟩,
  ⟨⟨"TIMESTAMPTZ"⟩, .time occurredAt⟩,
  textField e.name,
  textField e.url,
  ⟨⟨"JSONB"⟩, .json (Event.tagsValue e.tags)⟩,
  tokenField (kinds.toColumn e.kind),
  tokenField (severities.toColumn e.severity),
  textField e.username,
  textField e.message,
  ⟨⟨"BOOL"⟩, e.mute.elim .null .flag⟩,
  textField e.muteReason,
  textField e.rulesVersion,
  ⟨⟨"JSONB"⟩, .json (Event.idsValue e.ruleIds)⟩]

/-- The row of an event: each column of the insertion with the field bound in its place, and the
time of recording, which the table sets. -/
def ofEvent (id : EventId) (occurredAt recordedAt : Timestamp) (e : Event) : Row :=
  insertColumns.zip (insertFields id occurredAt e)
    ++ [("recorded_at", ⟨⟨"TIMESTAMPTZ"⟩, .time recordedAt⟩)]

/-- Every part of an event is in the column of its name. -/
theorem ofEvent_eq (id : EventId) (occurredAt recordedAt : Timestamp) (e : Event) :
    ofEvent id occurredAt recordedAt e = [
      ("event_id", ⟨⟨"UUID"⟩, .id id⟩),
      ("occurred_at", ⟨⟨"TIMESTAMPTZ"⟩, .time occurredAt⟩),
      ("name", textField e.name),
      ("url", textField e.url),
      ("tags", ⟨⟨"JSONB"⟩, .json (Event.tagsValue e.tags)⟩),
      ("type", tokenField (kinds.toColumn e.kind)),
      ("severity", tokenField (severities.toColumn e.severity)),
      ("username", textField e.username),
      ("message", textField e.message),
      ("mute", ⟨⟨"BOOL"⟩, e.mute.elim .null .flag⟩),
      ("mute_reason", textField e.muteReason),
      ("rules_version", textField e.rulesVersion),
      ("rule_ids", ⟨⟨"JSONB"⟩, .json (Event.idsValue e.ruleIds)⟩),
      ("recorded_at", ⟨⟨"TIMESTAMPTZ"⟩, .time recordedAt⟩)] :=
  rfl

/-! ## Reading -/

variable (row : Row)

/-- A field whose fault is all there is to say. -/
def plain {α : Type} (r : CellReader α) (name : String) : Except RowError α :=
  (row.read r name).mapError (.field name)

/-- A JSON field of a certain shape. -/
def shaped {α : Type} (id : EventId) (name : String) (shape : Json.Value → Except Json.Fault α) :
    Except RowError α :=
  match row.plain CellReader.json name with
  | .error e => .error e
  | .ok v => (shape v).mapError (.shape name id)

/-- A field of an enumeration. -/
def token {α : Type} (id : EventId) (name : String) (voc : Vocabulary α) : Except RowError α :=
  (row.read (CellReader.member voc) name).mapError (.token name id)

/-- The recorded event of a row. Of several faults the first counts: id, tags, rule ids,
kind and severity come before the times and the texts. -/
def toStored : Except RowError StoredEvent := do
  let id ← row.plain CellReader.id "event_id"
  let tags ← row.shaped id "tags" tagsOf
  let ruleIds ← row.shaped id "rule_ids" ruleIdsOf
  let kind ← row.token id "type" kinds
  let severity ← row.token id "severity" severities
  return {
    id := id
    occurredAt := ← row.plain CellReader.time "occurred_at"
    recordedAt := ← row.plain CellReader.time "recorded_at"
    event := {
      name := ← row.plain CellReader.text "name"
      url := ← row.plain CellReader.text "url"
      tags := tags
      kind := kind
      severity := severity
      username := ← row.plain CellReader.text "username"
      message := ← row.plain CellReader.text "message"
      mute := ← row.plain CellReader.flag? "mute"
      muteReason := ← row.plain CellReader.text "mute_reason"
      rulesVersion := ← row.plain CellReader.text "rules_version"
      ruleIds := ruleIds } }

end Row

end Courier.Store
