import Courier.Json.Record
import Courier.Text.Blank

/-!
# Rule sets

A `Snapshot` is one complete rule configuration of the server: an opaque version, to be
compared for equality only, and the rules under their keys. A rule may have an object
filter; a blank filter is none.

`Snapshot.ofJson` reads what the server sends. The rules may be missing or `null`, which
is the empty set of rules.
-/

namespace Courier

/-- A rule of the server. -/
structure Rule where
  id : String
  name : String
  /-- The filter expression as the server sent it. -/
  filterText : Option String
deriving DecidableEq, Repr

/-- A rule configuration at a point in time. -/
structure Snapshot where
  version : String
  rules : Dict Rule
deriving DecidableEq

namespace Rule

/-- Which objects the rule is about, if it says so by more than blanks. -/
def objectFilter (r : Rule) : Option String :=
  r.filterText.filter fun s => !Text.isBlankText s

/-- A rule as a JSON object. -/
def toValue (r : Rule) : Json.Value :=
  .obj [("id", .str r.id), ("name", .str r.name),
    ("object_filter_expr", match r.filterText with | none => .null | some s => .str s)]

/-! ## Reading a rule -/

/-- The fields of a rule. -/
inductive Field where
  | id | name | filter
deriving DecidableEq, Repr

/-- The name of a field in JSON. -/
def Field.label : Field → String
  | .id => "id"
  | .name => "name"
  | .filter => "object_filter_expr"

/-- The fields of a rule that have been read. -/
structure Draft where
  id : Option String
  name : Option String
  filter : Option (Option String)
deriving DecidableEq

/-- Whether a field has been read. -/
def Draft.filled (f : Field) (d : Draft) : Bool :=
  match f with
  | .id => d.id.isSome
  | .name => d.name.isSome
  | .filter => d.filter.isSome

/-- The draft with one more field, as a tree holds it. -/
def Draft.fill (f : Field) (t : Json.Tree) (d : Draft) : Except Json.Fault Draft :=
  match f with
  | .id => (Json.Decode.text t).map fun v => { d with id := some v }
  | .name => (Json.Decode.text t).map fun v => { d with name := some v }
  | .filter => (Json.Decode.optional Json.Decode.text t).map fun v => { d with filter := some v }

/-- The rule of a draft, or the first field that it lacks. -/
def Draft.finish (d : Draft) : Except Field Rule :=
  match d.id, d.name with
  | none, _ => .error .id
  | _, none => .error .name
  | some id, some name => .ok ⟨id, name, d.filter.getD none⟩

/-- How a rule is read. -/
def record : Json.Record Field Draft Rule where
  name := "Rule"
  fields := [.id, .name, .filter]
  label := Field.label
  omissible f := f = .filter
  blank := ⟨none, none, none⟩
  filled := Draft.filled
  fill := Draft.fill
  finish := Draft.finish

/-- The rule that a tree holds. -/
def decode : Json.Decoder Rule :=
  record.decode

end Rule

namespace Snapshot

/-- The version of a server without rules for the source. -/
def emptyVersion : String := ""

/-- Whether the server has no rules for the source. -/
def isEmptyVersion (s : Snapshot) : Bool :=
  s.version == emptyVersion

/-- The number of rules. -/
def size (s : Snapshot) : Nat :=
  s.rules.entries.length

/-- The rule under a key. -/
def get? (s : Snapshot) (key : String) : Option Rule :=
  s.rules.get? key

/-! ## Reading a snapshot -/

/-- The fields of a snapshot. -/
inductive Field where
  | version | rules
deriving DecidableEq, Repr

/-- The name of a field in JSON. -/
def Field.label : Field → String
  | .version => "version"
  | .rules => "rules"

/-- The fields of a snapshot that have been read. -/
structure Draft where
  version : Option String
  rules : Option (Dict Rule)
deriving DecidableEq

/-- Whether a field has been read. -/
def Draft.filled (f : Field) (d : Draft) : Bool :=
  match f with
  | .version => d.version.isSome
  | .rules => d.rules.isSome

/-- The draft with one more field, as a tree holds it. -/
def Draft.fill (f : Field) (t : Json.Tree) (d : Draft) : Except Json.Fault Draft :=
  match f with
  | .version => (Json.Decode.text t).map fun v => { d with version := some v }
  | .rules =>
    (Json.Decode.optional (Json.Decode.dict Rule.decode) t).map fun v =>
      { d with rules := some (v.getD ∅) }

/-- The snapshot of a draft, or the first field that it lacks. -/
def Draft.finish (d : Draft) : Except Field Snapshot :=
  match d.version with
  | none => .error .version
  | some version => .ok ⟨version, d.rules.getD ∅⟩

/-- How a snapshot is read. -/
def record : Json.Record Field Draft Snapshot where
  name := "RulesSnapshot"
  fields := [.version, .rules]
  label := Field.label
  omissible f := f = .rules
  blank := ⟨none, none⟩
  filled := Draft.filled
  fill := Draft.fill
  finish := Draft.finish

/-- The snapshot that a tree holds. -/
def decode : Json.Decoder Snapshot :=
  record.decode

/-- The snapshot whose JSON text is given as bytes. -/
def ofJson (bytes : List UInt8) : Except Json.Fault Snapshot :=
  Json.decode decode bytes

end Snapshot

end Courier
