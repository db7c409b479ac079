import Courier.Json.Decode

/-!
# Records in JSON

A record is written as an object with its fields by name, in any order and among other
members, or as an array of its fields in their order. `Record` says what the fields of a
record are called, how each fills its slot of a draft, and which may be left out;
`Record.decode` reads either form.

In an object a field may occur once, other members need only be well formed, and what is
missing shows at the end. In an array only fields that may be left out can be missing,
and nothing may follow the last one.
-/

namespace Courier.Json

/-- The reading of a record `α` with fields `φ`, through drafts `δ`. -/
structure Record (φ δ α : Type _) where
  /-- The name of the record. -/
  name : String
  /-- The fields in their order. -/
  fields : List φ
  /-- The name of a field. -/
  label : φ → String
  /-- Whether an array may end before the field. -/
  omissible : φ → Bool
  /-- The draft without any field. -/
  blank : δ
  /-- Whether the draft has the field. -/
  filled : φ → δ → Bool
  /-- The draft with the field that a tree holds. -/
  fill : φ → Tree → δ → Except Fault δ
  /-- The record of a draft, or the first field that it lacks. -/
  finish : δ → Except φ α

namespace Record

variable {φ δ α : Type _} (r : Record φ δ α)

/-- The field with a name. -/
def field? (name : String) : Option φ :=
  r.fields.find? fun f => r.label f == name

/-- A draft with the members of an object. -/
def members (closed : Bool) : δ → List (Option String × Tree) → Except Fault δ
  | draft, [] => if closed then .ok draft else .error .malformed
  | _, (none, _) :: _ => .error .malformed
  | draft, (some k, t) :: rest =>
    match r.field? k with
    | none => if t.isClosed then members closed draft rest else .error .malformed
    | some f =>
      if r.filled f draft then .error (.repeated k)
      else
        match r.fill f t draft with
        | .error e => .error e
        | .ok draft => members closed draft rest

/-- A draft with the items of an array for the fields from the `i`-th on. -/
def items (closed : Bool) (i : Nat) : δ → List φ → List Tree → Except Fault δ
  | draft, [], [] => if closed then .ok draft else .error .malformed
  | _, [], _ :: _ => .error .malformed
  | draft, f :: fs, [] =>
    if closed then
      if r.omissible f then items closed (i + 1) draft fs []
      else .error (.length i r.name r.fields.length)
    else .error .malformed
  | draft, f :: fs, t :: rest =>
    match r.fill f t draft with
    | .error e => .error e
    | .ok draft => items closed (i + 1) draft fs rest

/-- The record of a draft. -/
def complete (draft : δ) : Except Fault α :=
  (r.finish draft).mapError fun f => .missing (r.label f)

/-- The record that a tree holds. -/
def decode : Decoder α
  | .obj ms closed =>
    match r.members closed r.blank ms with
    | .error e => .error e
    | .ok draft => r.complete draft
  | .arr ts closed =>
    match r.items closed 0 r.blank r.fields ts with
    | .error e => .error e
    | .ok draft => r.complete draft
  | t => .error (Decode.mismatch (.record r.name) t)

end Record

end Courier.Json
