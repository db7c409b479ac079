import Courier.Proofs.Json.Order
import Courier.Yaml.Value

/-!
# A YAML value for every JSON value

A JSON value is written as a YAML value with the same structure (`ofJson`). If it is ordered and
finite, it is what that becomes (`toJson?_ofJson`) : the keys of an object are inserted in their
order, each behind those before it.
-/

namespace Courier.Yaml.Value

mutual

/-- The YAML value that says the same as a JSON value. -/
def ofJson : Json.Value → Value
  | .null => .null
  | .bool b => .bool b
  | .num (.int i) => .int i
  | .num (.double d) => .double d
  | .str s => .str s
  | .arr items => .seq (ofItems items)
  | .obj members => .map (ofMembers members)

/-- `ofJson` of every value in a list. -/
def ofItems : List Json.Value → List Value
  | [] => []
  | v :: rest => ofJson v :: ofItems rest

/-- The entries of a list of members. -/
def ofMembers : List (String × Json.Value) → List (Value × Value)
  | [] => []
  | (k, v) :: rest => (.str k, ofJson v) :: ofMembers rest

end

mutual

/-- An ordered and finite value is what its YAML value becomes. -/
theorem toJson?_ofJson : ∀ {v : Json.Value}, v.Ordered → v.Finite → (ofJson v).toJson? = some v
  | .null, _, _ | .bool _, _, _ | .num (.int _), _, _ | .str _, _, _ => rfl
  | .num (.double d), _, hd => by
    rw [ofJson, toJson?, if_pos (show d.isFinite = true from hd)]
  | .arr items, ho, hf => by
    rw [ofJson, toJson?, itemsToJson?_ofItems ho hf, Option.map_some]
  | .obj members, ho, hf => by
    have hkeys : Entries.Ordered ([] ++ members) := ho.1
    rw [ofJson, toJson?, entriesToJson?_ofMembers hkeys ho.2 hf, List.nil_append, Option.map_some]

theorem itemsToJson?_ofItems : ∀ {items : List Json.Value}, Json.Value.OrderedItems items →
    Json.Value.FiniteItems items → itemsToJson? (ofItems items) = some items
  | [], _, _ => rfl
  | v :: rest, ho, hf => by
    rw [ofItems, itemsToJson?, toJson?_ofJson ho.1 hf.1, itemsToJson?_ofItems ho.2 hf.2]
    rfl

theorem entriesToJson?_ofMembers : ∀ {members done : List (String × Json.Value)},
    Entries.Ordered (done ++ members) → Json.Value.OrderedMembers members →
      Json.Value.FiniteMembers members →
        entriesToJson? done (ofMembers members) = some (done ++ members)
  | [], done, _, _, _ => by rw [ofMembers, entriesToJson?, List.append_nil]
  | (k, v) :: rest, done, hk, ho, hf => by
    have hlast : ∀ m ∈ done, m.1 < k := fun m hm =>
      (List.pairwise_append.1 hk).2.2 m hm (k, v) List.mem_cons_self
    have happ : done ++ (k, v) :: rest = (done ++ [(k, v)]) ++ rest := by simp
    rw [ofMembers, entriesToJson?, jsonKey?, toJson?_ofJson ho.1 hf.1]
    dsimp only
    rw [Entries.insert_of_lt v hlast, happ]
    exact entriesToJson?_ofMembers (happ ▸ hk) ho.2 hf.2

end

end Courier.Yaml.Value
