import Courier.Decimal.Double

/-!
# JSON values

Numbers are integers or floating point numbers, and stay what they are: `1` and `1.0`
are two values. The members of an object are a list of pairs; in a `Value.Ordered`
value every such list is in strictly ascending order of its keys, so that no key occurs
twice and equal contents are equal values.
-/

namespace Courier.Json

/-- The first number with no place in 64 bits. -/
def wordBound : Nat := 0x10000000000000000

/-- The first number with no place in 64 bits of which one is for the sign. -/
def signedBound : Nat := 0x8000000000000000

/-- A number of a JSON value. -/
inductive Number where
  /-- An integer with a place in 64 bits, from `-signedBound` to below `wordBound`. -/
  | int (i : Int)
  /-- A finite floating point number. -/
  | double (d : Double)
deriving DecidableEq, Repr, Inhabited

/-- A JSON value. -/
inductive Value where
  | null
  | bool (b : Bool)
  | num (n : Number)
  | str (s : String)
  | arr (items : List Value)
  | obj (members : List (String × Value))
deriving Inhabited, Repr

namespace Value

mutual
/-- Whether the members of every object in the value have strictly ascending keys. -/
def Ordered : Value → Prop
  | .arr items => OrderedItems items
  | .obj members => members.Pairwise (fun a b => a.1 < b.1) ∧ OrderedMembers members
  | _ => True

/-- `Ordered` for each value of a list. -/
def OrderedItems : List Value → Prop
  | [] => True
  | v :: rest => v.Ordered ∧ OrderedItems rest

/-- `Ordered` for each value of a list of members. -/
def OrderedMembers : List (String × Value) → Prop
  | [] => True
  | (_, v) :: rest => v.Ordered ∧ OrderedMembers rest
end

/-- The text of a value that is one. -/
def asText? : Value → Option String
  | .str s => some s
  | _ => none

/-- The number of a value that is an integer from zero to below `wordBound`. -/
def asNatural? : Value → Option Nat
  | .num (.int i) => if 0 ≤ i ∧ i < wordBound then some i.toNat else none
  | _ => none

/-- Whether a value is an object. -/
def isObject : Value → Bool
  | .obj _ => true
  | _ => false

end Value

end Courier.Json
