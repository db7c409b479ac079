import Courier.Dict
import Courier.Json.Fault
import Courier.Json.Tree

/-!
# Reading values off a tree

A `Decoder` reads a value of some type off a tree, or says what is wrong. The decoders
here are those of texts, flags, optional values, dictionaries and lists; each walks its
part of the tree in the order of the text and stops at the first fault.
-/

namespace Courier.Json

/-- Reads a value off a tree. -/
abbrev Decoder (α : Type _) := Tree → Except Fault α

namespace Decode

/-- The fault of a tree that is not what is wanted. -/
def mismatch (wanted : Wanted) : Tree → Fault
  | .null => .kind .null wanted
  | .bool b => .kind (.bool b) wanted
  | .num (some n) => .kind (.number n) wanted
  | .num none => .malformed
  | .str (some s) => .kind (.text s) wanted
  | .str none => .malformed
  | .arr .. => .kind .sequence wanted
  | .obj .. => .kind .map wanted
  | .broken => .malformed

/-- A string. -/
def text : Decoder String
  | .str (some s) => .ok s
  | t => .error (mismatch .text t)

/-- A boolean. -/
def flag : Decoder Bool
  | .bool b => .ok b
  | t => .error (mismatch .boolean t)

/-- `null`, or a value. -/
def optional {α : Type _} (d : Decoder α) : Decoder (Option α)
  | .null => .ok none
  | t => (d t).map some

variable {α : Type _}

/-- The members of an object whose keys are texts and whose values all decode, added to
a dictionary in order. -/
def entries (d : Decoder α) (closed : Bool) (acc : Dict α) :
    List (Option String × Tree) → Except Fault (Dict α)
  | [] => if closed then .ok acc else .error .malformed
  | (none, _) :: _ => .error .malformed
  | (some k, t) :: rest =>
    match d t with
    | .error f => .error f
    | .ok v => entries d closed (acc.insert k v) rest

/-- An object as a dictionary; of two members with one key the later one counts, but
both have to decode. -/
def dict (d : Decoder α) : Decoder (Dict α)
  | .obj members closed => entries d closed ∅ members
  | t => .error (mismatch .map t)

/-- The items of an array, each decoded, after those in `acc`, latest first. -/
def items (d : Decoder α) (closed : Bool) (acc : List α) : List Tree → Except Fault (List α)
  | [] => if closed then .ok acc.reverse else .error .malformed
  | t :: rest =>
    match d t with
    | .error f => .error f
    | .ok v => items d closed (v :: acc) rest

/-- An array as a list. -/
def list (d : Decoder α) : Decoder (List α)
  | .arr ts closed => items d closed [] ts
  | t => .error (mismatch .sequence t)

/-- An array of strings as a set. -/
def keySet (t : Tree) : Except Fault KeySet :=
  (list text t).map KeySet.ofList

end Decode

/-- The value that a document holds for a decoder: its root, if nothing follows it. -/
def Document.decode {α : Type _} (doc : Document) (d : Decoder α) : Except Fault α :=
  match d doc.root with
  | .error f => .error f
  | .ok v => if doc.ended then .ok v else .error .malformed

/-- The value that a text given as bytes holds for a decoder. -/
def decode {α : Type _} (d : Decoder α) (bytes : List UInt8) : Except Fault α :=
  (Document.ofBytes bytes).decode d

/-! ## Values of any kind -/

mutual
/-- The value of a tree, if its text is well formed and every string and number in it
can be had. The members of an object come in ascending order of their keys, the last
one of each key. -/
def Tree.toValue? : Tree → Option Value
  | .null => some .null
  | .bool b => some (.bool b)
  | .num n => n.map .num
  | .str s => s.map .str
  | .arr ts closed => if closed then (itemValues? ts).map .arr else none
  | .obj ms closed => if closed then (memberValues? ms).map fun es => .obj (Entries.ofList es) else none
  | .broken => none

/-- The values of a list of trees. -/
def itemValues? : List Tree → Option (List Value)
  | [] => some []
  | t :: rest =>
    match t.toValue?, itemValues? rest with
    | some v, some vs => some (v :: vs)
    | _, _ => none

/-- The members of an object with their values. -/
def memberValues? : List (Option String × Tree) → Option (List (String × Value))
  | [] => some []
  | (k, t) :: rest =>
    match k, t.toValue?, memberValues? rest with
    | some k, some v, some es => some ((k, v) :: es)
    | _, _, _ => none
end

/-- The value of a text given as bytes, if it is one well-formed value. -/
def Value.ofBytes? (bytes : List UInt8) : Option Value :=
  let doc := Document.ofBytes bytes
  if doc.ended then doc.root.toValue? else none

end Courier.Json
