import Courier.Proofs.Config.Merge
import Courier.Proofs.Steps

/-!
# What a loaded configuration holds

A load that succeeds has found a value in every layer, and its configuration holds the
merged values (`ofDocuments_eq_ok_iff`), which are ordered and finite (`ordered_value`,
`finite_value`). So what is known of merged layers holds of configurations : in each place
the last layer that has a value there is the one that counts (`lastWriter_wins`).
-/

namespace Courier.Config

open Json (Value)
open Json.Value

/-- The document is valid and says the value. -/
def Says (document : Option Yaml.Value) (v : Value) : Prop :=
  ∃ y, document = some y ∧ y.toJson? = some v

variable {documents : List (Option Yaml.Value)} {values : List Value}

theorem layer_eq_ok_iff {i : Nat} {d : Option Yaml.Value} {v : Value} :
    layer i d = .ok v ↔ Says d v := by
  unfold layer Says
  cases d with
  | none => simp
  | some y => cases hy : y.toJson? <;> simp [hy]

theorem layers_eq_bind (i : Nat) (d : Option Yaml.Value) (rest : List (Option Yaml.Value)) :
    layers i (d :: rest) = layer i d >>= fun v => (layers (i + 1) rest).map (v :: ·) := by
  rw [layers]
  cases layer i d <;> rfl

theorem layers_eq_ok_iff :
    ∀ {i : Nat} {documents : List (Option Yaml.Value)} {values : List Value},
      layers i documents = .ok values ↔ List.Forall₂ Says documents values
  | i, [], values => by
    rw [List.forall₂_nil_left_iff, layers, Except.ok.injEq, eq_comm]
  | i, d :: rest, values => by
    simp only [List.forall₂_cons_left_iff, layers_eq_bind, bind_eq_ok_iff, layer_eq_ok_iff,
      map_eq_ok_iff, layers_eq_ok_iff]
    constructor
    · rintro ⟨v, hv, vs, hvs, rfl⟩
      exact ⟨v, vs, hv, hvs, rfl⟩
    · rintro ⟨v, vs, hv, hvs, rfl⟩
      exact ⟨v, hv, vs, hvs, rfl⟩

theorem ofDocuments_eq_bind (documents : List (Option Yaml.Value)) :
    ofDocuments documents = layers 0 documents >>= fun values => ofValue (mergeAll values) := by
  rw [ofDocuments]
  cases layers 0 documents <;> rfl

theorem ofValue_eq_ok_iff {v : Value} {c : Config} :
    ofValue v = .ok c ↔ firstSecret? v = none ∧ c.value = v := by
  obtain ⟨w⟩ := c
  rw [ofValue]
  cases firstSecret? v <;> simp [eq_comm]

/-- A load succeeds with the merged values of the layers, if no secret is in them. -/
theorem ofDocuments_eq_ok_iff {c : Config} : ofDocuments documents = .ok c ↔
    ∃ values, List.Forall₂ Says documents values ∧ firstSecret? (mergeAll values) = none ∧
      c.value = mergeAll values := by
  simp only [ofDocuments_eq_bind, bind_eq_ok_iff, layers_eq_ok_iff, ofValue_eq_ok_iff]

/-! ## The merged value -/

/-- The merged value has what the values of documents have and merges keep. -/
theorem of_mergeAll {P : Value → Prop} (hP : Hereditary P) (hempty : P (.obj []))
    (h : ∀ v ∈ values, P v) : P (mergeAll values) := by
  induction values using List.reverseRecOn with
  | nil => exact hempty
  | append_singleton values v ih =>
    rw [mergeAll_append]
    exact of_merge hP v (ih fun w hw => h w (by simp [hw])) (h v (by simp))

theorem of_layers {P : Value → Prop} (hP : Yaml.Value.Converted P)
    (h : List.Forall₂ Says documents values) : ∀ v ∈ values, P v := by
  induction h with
  | nil => simp
  | cons hsays _ ih =>
    obtain ⟨y, -, hy⟩ := hsays
    exact List.forall_mem_cons.2 ⟨Yaml.Value.of_toJson? hP y hy, ih⟩

theorem ordered_mergeAll (h : List.Forall₂ Says documents values) : (mergeAll values).Ordered :=
  of_mergeAll hereditary_ordered Yaml.Value.converted_ordered.empty
    (of_layers Yaml.Value.converted_ordered h)

theorem ordered_value {c : Config} (h : ofDocuments documents = .ok c) : c.value.Ordered := by
  obtain ⟨values, hvalues, -, hc⟩ := ofDocuments_eq_ok_iff.1 h
  rw [hc]
  exact ordered_mergeAll hvalues

theorem finite_value {c : Config} (h : ofDocuments documents = .ok c) : c.value.Finite := by
  obtain ⟨values, hvalues, -, hc⟩ := ofDocuments_eq_ok_iff.1 h
  rw [hc]
  exact of_mergeAll hereditary_finite Yaml.Value.converted_finite.empty
    (of_layers Yaml.Value.converted_finite hvalues)

/-- In every place the last writer wins. Over any base, an ordered layer shows where it cuts
a place off, the base shows where the layer has nothing, and where the layer has an object
there is one with the keys of both. Hence in a stack of layers, and in every configuration
that is loaded, the values that are no objects are those that settle their places. -/
theorem lastWriter_wins :
    (∀ (base layer : Value) (p : List String), layer.Ordered →
      (layer.Cuts p → (merge base layer).at? p = layer.at? p) ∧
      (¬layer.Cuts p → layer.at? p = none → (merge base layer).at? p = base.at? p) ∧
      (¬layer.Cuts p → layer.at? p ≠ none → ∃ ms ns, layer.at? p = some (.obj ms) ∧
        (merge base layer).at? p = some (.obj ns) ∧
        ∀ k, k ∈ ns.map Prod.fst ↔ k ∈ ms.map Prod.fst ∨
          ∃ bs, base.at? p = some (.obj bs) ∧ k ∈ bs.map Prod.fst)) ∧
    (∀ (layers : List Value) (p : List String) (v : Value), (∀ l ∈ layers, l.Ordered) →
      v.isObject = false → ((mergeAll layers).at? p = some v ↔ Settles layers p v)) ∧
    ∀ (documents : List (Option Yaml.Value)) (c : Config), ofDocuments documents = .ok c →
      ∃ layers, List.Forall₂ Says documents layers ∧ ∀ (p : List String) (v : Value),
        v.isObject = false → (c.value.at? p = some v ↔ Settles layers p v) := by
  refine ⟨fun base layer p h => ⟨at?_merge_of_cuts h, fun hc hn => at?_merge_of_not_cuts h hn hc,
    fun hc hn => ?_⟩, fun layers p v h hv => at?_mergeAll_iff h hv, fun documents c h => ?_⟩
  · obtain ⟨w, hw⟩ := Option.ne_none_iff_exists'.1 hn
    obtain ⟨ms, rfl⟩ : ∃ ms, w = .obj ms := by
      cases w with
      | obj ms => exact ⟨ms, rfl⟩
      | _ => exact absurd ⟨p, _, List.prefix_rfl, hw, rfl⟩ hc
    obtain ⟨ns, hns, hkeys⟩ := at?_merge_of_obj h hw
    exact ⟨ms, ns, hw, hns, hkeys⟩
  · obtain ⟨layers, hlayers, -, hc⟩ := ofDocuments_eq_ok_iff.1 h
    refine ⟨layers, hlayers, fun p v hv => ?_⟩
    rw [hc]
    exact at?_mergeAll_iff (of_layers Yaml.Value.converted_ordered hlayers) hv

/-- A layer that sets one of two members of an object, and adds a third beside them. -/
theorem lastWriter_wins_nested :
    let base : Value :=
      .obj [("a", .obj [("x", .num (.int 1)), ("y", .num (.int 2))]), ("b", .null)]
    let layer : Value := .obj [("a", .obj [("x", .arr []), ("z", .null)])]
    (merge base layer).at? ["a", "x", "q"] = layer.at? ["a", "x", "q"] ∧
    (merge base layer).at? ["a", "y"] = base.at? ["a", "y"] ∧
    (∃ ns, (merge base layer).at? ["a"] = some (.obj ns) ∧
      ∀ k, k ∈ ns.map Prod.fst ↔ k = "x" ∨ k = "y" ∨ k = "z") ∧
    (mergeAll [base, layer]).at? ["a", "y"] = some (.num (.int 2)) := by
  intro base layer
  obtain ⟨hmerge, hlayers, -⟩ := lastWriter_wins
  have hbase : base.Ordered :=
    ⟨by decide, ⟨by decide, trivial, trivial, trivial⟩, trivial, trivial⟩
  have hlayer : layer.Ordered := ⟨by decide, ⟨by decide, trivial, trivial, trivial⟩, trivial⟩
  have hcuts : layer.Cuts ["a", "x", "q"] := ⟨["a", "x"], .arr [], ⟨["q"], rfl⟩, rfl, rfl⟩
  have hy : ¬layer.Cuts ["a", "y"] := by
    simp [layer, cuts_cons_iff, member?, Entries.get?, isObject]
  have ha : ¬layer.Cuts ["a"] := by
    simp [layer, cuts_cons_iff, cuts_nil_iff, member?, Entries.get?, isObject]
  obtain ⟨hxq, -, -⟩ := hmerge base layer ["a", "x", "q"] hlayer
  obtain ⟨-, hside, -⟩ := hmerge base layer ["a", "y"] hlayer
  obtain ⟨-, -, hobj⟩ := hmerge base layer ["a"] hlayer
  refine ⟨hxq hcuts, hside hy rfl, ?_, ?_⟩
  · obtain ⟨ms, ns, hms, hns, hkeys⟩ := hobj ha (Option.some_ne_none _)
    obtain rfl : [("x", .arr []), ("z", .null)] = ms := by injection hms with h; injection h
    refine ⟨ns, hns, fun k => ?_⟩
    have hbelow : base.at? ["a"] = some (.obj [("x", .num (.int 1)), ("y", .num (.int 2))]) := rfl
    rw [hkeys, hbelow]
    simp only [Option.some.injEq, Value.obj.injEq, exists_eq_left', List.map_cons, List.map_nil,
      List.mem_cons, List.not_mem_nil, or_false]
    tauto
  · refine (hlayers [base, layer] ["a", "y"] _ (by simp [hbase, hlayer]) rfl).2
      ⟨[], base, [layer], rfl, rfl, ?_⟩
    simpa using ⟨rfl, hy⟩

end Courier.Config
