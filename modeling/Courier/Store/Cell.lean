import Courier.Json.Decode
import Courier.Store.Column

/-!
# Cells

A row of the store is a list of named fields. A field has the type of its column and
holds a cell. `Row.read` reads a field through a `CellReader`: the type has to fit unless
the cell is null, and a null is an error where the reader has no value for it.
-/

namespace Courier.Store

/-- The id of a stored event. -/
structure EventId where
  text : String
deriving DecidableEq, Repr, Inhabited

/-- A point in time, in microseconds since the start of 1970. -/
structure Timestamp where
  micros : Int
deriving DecidableEq, Repr, Inhabited

/-- What a field holds. -/
inductive Cell where
  | null
  | text (bytes : List UInt8)
  | json (v : Json.Value)
  | flag (b : Bool)
  | id (i : EventId)
  | time (t : Timestamp)

/-- A field of a row. -/
structure Field where
  type : ColumnType
  cell : Cell

/-- A row: its fields by name. -/
abbrev Row := List (String × Field)

/-- Why a field cannot be read. -/
inductive FieldFault where
  /-- The row has no such field. -/
  | absent
  /-- The type of the column does not fit. -/
  | mismatched
  | unexpectedNull
  | notUtf8
  /-- The cell holds a JSON text that is malformed. -/
  | malformed
  | token (e : TokenError)
deriving DecidableEq, Repr

/-- The wording of a fault. -/
def FieldFault.message : FieldFault → String
  | .absent => "no such column"
  | .mismatched => "mismatched types"
  | .unexpectedNull => "unexpected null"
  | .notUtf8 => "invalid utf-8"
  | .malformed => Json.Fault.malformed.message
  | .token e => e.message

/-- How a value is read off a cell. -/
structure CellReader (α : Type) where
  /-- The types that fit. -/
  accepts : ColumnType → Bool
  /-- The value of a null, if it has one. -/
  ofNull? : Option α
  /-- The value of a cell that is not null. -/
  read : Cell → Except FieldFault α

/-- The value of a named field. -/
def Row.read {α : Type} (row : Row) (r : CellReader α) (name : String) : Except FieldFault α :=
  match Entries.get? name row with
  | none => .error .absent
  | some f =>
    match f.cell with
    | .null =>
      match r.ofNull? with
      | none => .error .unexpectedNull
      | some v => .ok v
    | cell => if r.accepts f.type then r.read cell else .error .mismatched

namespace CellReader

/-- A text. -/
def text : CellReader String where
  accepts t := t.holdsText && t.name.toLower != "citext"
  ofNull? := none
  read
    | .text bytes =>
      match Utf8.decode? bytes with
      | none => .error .notUtf8
      | some cs => .ok (String.ofList cs)
    | _ => .error .mismatched

/-- A JSON value, stored as a value or as its text. -/
def json : CellReader Json.Value where
  accepts := ColumnType.holdsJson
  ofNull? := none
  read
    | .json v => .ok v
    | .text bytes =>
      match Json.Value.ofBytes? bytes with
      | none => .error .malformed
      | some v => .ok v
    | _ => .error .mismatched

/-- A member of an enumeration, by its token. -/
def member {α : Type} (voc : Vocabulary α) : CellReader α where
  accepts := ColumnType.holdsText
  ofNull? := some voc.absent
  read
    | .text bytes =>
      match Utf8.decode? bytes with
      | none => .error .notUtf8
      | some cs => (voc.ofColumn (some (String.ofList cs))).mapError .token
    | _ => .error .mismatched

/-- A flag or nothing. -/
def flag? : CellReader (Option Bool) where
  accepts t := t.name.toLower == "bool"
  ofNull? := some none
  read
    | .flag b => .ok (some b)
    | _ => .error .mismatched

/-- An id. -/
def id : CellReader EventId where
  accepts t := t.name.toLower == "uuid"
  ofNull? := none
  read
    | .id i => .ok i
    | _ => .error .mismatched

/-- A point in time. -/
def time : CellReader Timestamp where
  accepts t := t.name.toLower == "timestamptz"
  ofNull? := none
  read
    | .time t => .ok t
    | _ => .error .mismatched

end CellReader

end Courier.Store
