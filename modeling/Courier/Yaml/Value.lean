import Courier.Decimal.Shortest
import Courier.Dict
import Courier.Json.Write

/-!
# YAML values

What a document says, its aliases followed and its plain texts understood. Any value may
be a key of a mapping; no two keys of one mapping are the same, and the order of the
entries does not matter.

`Value.toJson?` is the JSON value that says the same: single values as keys become texts,
and a value with a tag becomes an object with the tag as its only key.
-/

namespace Courier.Yaml

/-- A YAML value. -/
inductive Value where
  | null
  | bool (b : Bool)
  | int (i : Int)
  /-- A floating point number, also infinity and no number. -/
  | double (d : Double)
  | str (s : String)
  | seq (items : List Value)
  | map (entries : List (Value × Value))
  /-- A value with a tag of its document's own. -/
  | tagged (tag : String) (v : Value)
deriving Inhabited

namespace Value

/-! ## Sameness -/

/-- Whether two floating point numbers count as one key: equal numbers, zeros of either
sign, and no number with itself. -/
def sameDouble (d e : Double) : Bool :=
  (d.isNaN && e.isNaN) || (d.isZero && e.isZero) || (!d.isNaN && d == e)

mutual

/-- Whether two values are the same. An integer and a floating point number never are. -/
def same : Value → Value → Bool
  | .null, .null => true
  | .bool a, .bool b => a == b
  | .int i, .int j => i == j
  | .double d, .double e => sameDouble d e
  | .str s, .str t => s == t
  | .seq vs, .seq ws => sameItems vs ws
  | .map es, .map fs => es.length == fs.length && sameEntries es fs
  | .tagged t v, .tagged u w => t == u && same v w
  | _, _ => false

/-- Whether two lists have the same values in the same order. -/
def sameItems : List Value → List Value → Bool
  | [], [] => true
  | v :: vs, w :: ws => same v w && sameItems vs ws
  | _, _ => false

/-- Whether every entry of the first list has its like in the second. -/
def sameEntries : List (Value × Value) → List (Value × Value) → Bool
  | [], _ => true
  | (k, v) :: rest, fs => fs.any (fun f => same k f.1 && same v f.2) && sameEntries rest fs

end

/-- Whether no two keys of a list of entries are the same. -/
def distinctKeys : List (Value × Value) → Bool
  | [] => true
  | (k, _) :: rest => !rest.any (fun e => same k e.1) && distinctKeys rest

/-! ## JSON -/

/-- The key of an object that says the same as a value, if it can be a key there. -/
def jsonKey? : Value → Option String
  | .bool b => some (if b then "true" else "false")
  | .int i => some (String.ofList (Json.renderInt i))
  | .double d => if d.isFinite then some (String.ofList d.render) else none
  | .str s => some s
  | _ => none

mutual

/-- The JSON value that says the same; `none` if a key of a mapping cannot be one there.
Numbers that are not finite are null. Of entries whose keys become one the last stays. -/
def toJson? : Value → Option Json.Value
  | .null => some .null
  | .bool b => some (.bool b)
  | .int i => some (.num (.int i))
  | .double d => some (if d.isFinite then .num (.double d) else .null)
  | .str s => some (.str s)
  | .seq items => (itemsToJson? items).map .arr
  | .map entries => (entriesToJson? [] entries).map .obj
  | .tagged tag v => v.toJson?.map fun j => .obj [(tag, j)]

/-- `toJson?` of every value in a list. -/
def itemsToJson? : List Value → Option (List Json.Value)
  | [] => some []
  | v :: rest =>
    match v.toJson? with
    | none => none
    | some j => (itemsToJson? rest).map (j :: ·)

/-- The members `done` with those of a list of entries. -/
def entriesToJson? (done : List (String × Json.Value)) :
    List (Value × Value) → Option (List (String × Json.Value))
  | [] => some done
  | (k, v) :: rest =>
    match k.jsonKey?, v.toJson? with
    | some k, some j => entriesToJson? (Entries.insert k j done) rest
    | _, _ => none

end

end Value

end Courier.Yaml
