import Courier.Proofs.Json.Order
import Courier.Yaml.Value

/-!
# What a YAML value becomes

The JSON value of a YAML value is made of single values and lists, and of objects that are
filled one member after the other. So it has every property that these hand on
(`of_toJson?`) : it is ordered (`converted_ordered`), and all its numbers are finite
(`converted_finite`).
-/

namespace Courier.Yaml.Value

/-- A property of JSON values that all parts of a conversion have and keep. -/
structure Converted (P : Json.Value → Prop) : Prop where
  null : P .null
  bool : ∀ b, P (.bool b)
  int : ∀ i, P (.num (.int i))
  double : ∀ d : Double, d.isFinite = true → P (.num (.double d))
  str : ∀ s, P (.str s)
  arr : ∀ js, (∀ j ∈ js, P j) → P (.arr js)
  empty : P (.obj [])
  insert : ∀ {k j ms}, P (.obj ms) → P j → P (.obj (Entries.insert k j ms))

variable {P : Json.Value → Prop}

mutual

/-- What a value becomes has every property that its parts hand on. -/
theorem of_toJson? (hP : Converted P) : ∀ (v : Value) {j : Json.Value}, v.toJson? = some j → P j
  | .null, _, h => by
    obtain rfl := Option.some.inj h
    exact hP.null
  | .bool b, _, h => by
    obtain rfl := Option.some.inj h
    exact hP.bool b
  | .int i, _, h => by
    obtain rfl := Option.some.inj h
    exact hP.int i
  | .double d, _, h => by
    obtain rfl := Option.some.inj h
    split
    · next hd => exact hP.double d hd
    · exact hP.null
  | .str s, _, h => by
    obtain rfl := Option.some.inj h
    exact hP.str s
  | .seq items, _, h => by
    rw [toJson?, Option.map_eq_some_iff] at h
    obtain ⟨js, hjs, rfl⟩ := h
    exact hP.arr js (of_itemsToJson? hP items hjs)
  | .map entries, _, h => by
    rw [toJson?, Option.map_eq_some_iff] at h
    obtain ⟨ms, hms, rfl⟩ := h
    exact of_entriesToJson? hP entries hP.empty hms
  | .tagged tag v, _, h => by
    rw [toJson?, Option.map_eq_some_iff] at h
    obtain ⟨j, hj, rfl⟩ := h
    exact hP.insert hP.empty (of_toJson? hP v hj)

theorem of_itemsToJson? (hP : Converted P) : ∀ (vs : List Value) {js : List Json.Value},
    itemsToJson? vs = some js → ∀ j ∈ js, P j
  | [], _, h => by
    obtain rfl := Option.some.inj h
    simp
  | v :: rest, _, h => by
    rw [itemsToJson?] at h
    cases hv : v.toJson? with
    | none => simp [hv] at h
    | some j =>
      rw [hv] at h
      obtain ⟨js, hjs, rfl⟩ := Option.map_eq_some_iff.1 h
      exact List.forall_mem_cons.2 ⟨of_toJson? hP v hv, of_itemsToJson? hP rest hjs⟩

theorem of_entriesToJson? (hP : Converted P) :
    ∀ (es : List (Value × Value)) {done ms : List (String × Json.Value)},
      P (.obj done) → entriesToJson? done es = some ms → P (.obj ms)
  | [], _, _, hd, h => by
    obtain rfl := Option.some.inj h
    exact hd
  | (k, v) :: rest, done, ms, hd, h => by
    rw [entriesToJson?] at h
    cases hk : k.jsonKey? with
    | none => simp [hk] at h
    | some key =>
      cases hv : v.toJson? with
      | none => simp [hk, hv] at h
      | some j =>
        rw [hk, hv] at h
        exact of_entriesToJson? hP rest (hP.insert hd (of_toJson? hP v hv)) h

end

theorem converted_ordered : Converted Json.Value.Ordered where
  null := trivial
  bool _ := trivial
  int _ := trivial
  double _ _ := trivial
  str _ := trivial
  arr _ h := Json.Value.orderedItems_iff.2 h
  empty := Json.Value.ordered_obj_iff.2 ⟨List.Pairwise.nil, by simp⟩
  insert := Json.Value.hereditary_ordered.insert

theorem converted_finite : Converted Json.Value.Finite where
  null := trivial
  bool _ := trivial
  int _ := trivial
  double _ h := h
  str _ := trivial
  arr _ h := Json.Value.finiteItems_iff.2 h
  empty := trivial
  insert := Json.Value.hereditary_finite.insert

end Courier.Yaml.Value
