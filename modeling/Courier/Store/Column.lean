import Courier.Event.Kind

/-!
# Columns

The types of columns that a text can be read from, and those that hold JSON.
-/

namespace Courier.Store

/-- The type of a column, by its name. -/
structure ColumnType where
  name : String
deriving DecidableEq, Repr

namespace ColumnType

/-- The type of texts. -/
def text : ColumnType := ⟨"TEXT"⟩

/-- Whether texts, and with them the tokens of enumerations, can be read from a column of
the type. -/
def holdsText (t : ColumnType) : Bool :=
  ["text", "name", "bpchar", "varchar", "unknown", "citext"].contains t.name.toLower

/-- Whether JSON values can be read from a column of the type. -/
def holdsJson (t : ColumnType) : Bool :=
  ["json", "jsonb"].contains t.name.toLower

end ColumnType

end Courier.Store
