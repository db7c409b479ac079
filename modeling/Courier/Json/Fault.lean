import Courier.Json.Write

/-!
# What is wrong with a JSON text

A text is malformed, or it holds the wrong values. `Fault.message` words the second
kind; a malformed text has no wording of its own.
-/

namespace Courier.Json

/-- What a reader finds. -/
inductive Found where
  | null
  | bool (b : Bool)
  | number (n : Number)
  | text (s : String)
  | sequence
  | map
deriving DecidableEq, Repr

/-- What a reader wants. -/
inductive Wanted where
  | text
  | boolean
  | map
  | sequence
  /-- A record with a name. -/
  | record (name : String)
deriving DecidableEq, Repr

/-- Why a text gives no value of the wanted type. -/
inductive Fault where
  /-- The text is not well formed, or a wanted string or number cannot be had from it. -/
  | malformed
  | missing (field : String)
  | repeated (field : String)
  | kind (found : Found) (wanted : Wanted)
  /-- A record given as a list that is too short for it. -/
  | length (found : Nat) (record : String) (fields : Nat)
  /-- A token that is not in the table of an enumeration. -/
  | unknown (noun token : String)
deriving DecidableEq, Repr

/-- What was found, in words. -/
def Found.describe : Found → String
  | .null => "null"
  | .bool b => "boolean `" ++ (if b then "true" else "false") ++ "`"
  | .number (.int i) => "integer `" ++ String.ofList (renderInt i) ++ "`"
  | .number (.double d) => "floating point `" ++ String.ofList d.render ++ "`"
  | .text s => "string " ++ Text.quote s
  | .sequence => "sequence"
  | .map => "map"

/-- What was wanted, in words. -/
def Wanted.describe : Wanted → String
  | .text => "a string"
  | .boolean => "a boolean"
  | .map => "a map"
  | .sequence => "a sequence"
  | .record name => "struct " ++ name

/-- The wording of a fault; none for a malformed text. -/
def Fault.message? : Fault → Option String
  | .malformed => none
  | .missing field => some ("missing field `" ++ field ++ "`")
  | .repeated field => some ("duplicate field `" ++ field ++ "`")
  | .kind found wanted =>
    some ("invalid type: " ++ found.describe ++ ", expected " ++ wanted.describe)
  | .length found record fields =>
    some ("invalid length " ++ String.ofList (Nat.toDigits 10 found) ++ ", expected struct "
      ++ record ++ " with " ++ String.ofList (Nat.toDigits 10 fields) ++ " elements")
  | .unknown noun token => some ("unknown " ++ noun ++ " " ++ Text.quote token)

/-- The wording of a fault inside a longer message. -/
def Fault.message (f : Fault) : String :=
  f.message?.getD "<json_syntax>"

end Courier.Json
