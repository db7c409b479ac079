import Courier.Dict
import Courier.Json.Write

/-!
# Places in a value

A place in a value is a path of keys, or its pointer: every key behind a slash, with `~`
and `/` in it written `~0` and `~1`. The items of an array have their numbers for keys.

`Value.leaves` lists the values that are neither objects nor arrays, with their paths;
`Value.pointer?` looks a pointer up.
-/

namespace Courier.Json

/-! ## Paths -/

namespace Value

/-- The value of a key in an object. -/
def member? (k : String) : Value → Option Value
  | .obj members => Entries.get? k members
  | _ => none

/-- The value at a path of keys of objects. -/
def at? : List String → Value → Option Value
  | [], v => some v
  | k :: path, v => (v.member? k).bind (at? path)

/-- Whether a value holds no other values: it is neither an object nor an array. -/
def isLeaf : Value → Bool
  | .arr _ | .obj _ => false
  | _ => true

mutual

/-- The leaves of a value with their paths, in the order in which they are written. -/
def leaves : Value → List (List String × Value)
  | .arr items => leavesOfItems 0 items
  | .obj members => leavesOfMembers members
  | v => [([], v)]

/-- The leaves of the items of an array, from the `i`-th on. -/
def leavesOfItems (i : Nat) : List Value → List (List String × Value)
  | [] => []
  | v :: rest =>
    v.leaves.map (fun l => (String.ofList (Nat.toDigits 10 i) :: l.1, l.2))
      ++ leavesOfItems (i + 1) rest

/-- The leaves of the members of an object. -/
def leavesOfMembers : List (String × Value) → List (List String × Value)
  | [] => []
  | (k, v) :: rest => v.leaves.map (fun l => (k :: l.1, l.2)) ++ leavesOfMembers rest

end

end Value

/-! ## Pointers -/

namespace Pointer

/-- How a pointer writes a character of a key. -/
def escapeChar (c : Char) : List Char :=
  if c = '~' then ['~', '0'] else if c = '/' then ['~', '1'] else [c]

/-- How a pointer writes a key. -/
def escape (key : List Char) : List Char :=
  key.flatMap escapeChar

/-- The key that a part of a pointer stands for. -/
def unescape : List Char → List Char
  | '~' :: '1' :: rest => '/' :: unescape rest
  | '~' :: '0' :: rest => '~' :: unescape rest
  | c :: rest => c :: unescape rest
  | [] => []

/-- The pointer of a path. -/
def ofPath (path : List String) : List Char :=
  path.flatMap fun k => '/' :: escape k.toList

/-- The parts of a text between slashes, at least one. -/
def split : List Char → List (List Char)
  | [] => [[]]
  | c :: rest =>
    if c = '/' then [] :: split rest
    else
      match split rest with
      | [] => [[c]]
      | part :: parts => (c :: part) :: parts

/-- The path of a pointer; `none` if it does not start with a slash. -/
def toPath? : List Char → Option (List String)
  | [] => some []
  | '/' :: rest => some ((split rest).map fun part => String.ofList (unescape part))
  | _ => none

/-- The number that a key of an array spells, without a sign or zeros in front. -/
def index? (key : List Char) : Option Nat :=
  if key.isEmpty || !key.all (·.isDigit) || (key.head? == some '0' && key.length ≠ 1) then none
  else some (key.foldl (fun n c => 10 * n + (c.toNat - 48)) 0)

end Pointer

namespace Value

/-- The value of a key in an object or of a number in an array. -/
def child? (k : String) : Value → Option Value
  | .obj members => Entries.get? k members
  | .arr items => (Pointer.index? k.toList).bind (items[·]?)
  | _ => none

/-- The value at a path. -/
def descend? : List String → Value → Option Value
  | [], v => some v
  | k :: path, v => (v.child? k).bind (descend? path)

/-- The value that a pointer leads to. -/
def pointer? (pointer : String) (v : Value) : Option Value :=
  (Pointer.toPath? pointer.toList).bind (descend? · v)

end Value

end Courier.Json
