import Courier.Proofs.Config.Merge
import Mathlib.Data.Fintype.EquivFin

/-!
# Laws of merging

Merging is idempotent, and an empty object below changes nothing (`merge_self`, `merge_empty`).
Two layers can be merged in either order if they share nothing but objects (`merge_comm`), and the
upper two of three values can be merged first unless the topmost has an object where the middle one
has something else, which is just when the lowest does not matter (`merge_assoc_iff`).

What every key leads to settles an ordered object, so that each law is one about the values under
one key (`merge_eq_of_member?`), and the induction is on the members of a value
(`induct_members`).
-/

namespace Courier

open Json (Value)

namespace Json.Value

variable {v w : Value} {k : String} {p : List String}

/-! ## Members -/

/-- Ordered objects in which every key leads to the same are equal. -/
theorem eq_of_member? (hv : v.Ordered) (hw : w.Ordered) (hv' : v.isObject = true)
    (hw' : w.isObject = true) (h : ∀ k, v.member? k = w.member? k) : v = w := by
  cases v with
  | obj ms =>
    cases w with
    | obj ns =>
      exact congrArg Value.obj (Entries.ext_get? (ordered_obj_iff.1 hv).1 (ordered_obj_iff.1 hw).1 h)
    | _ => cases hw'
  | _ => cases hv'

/-- What holds of a value whenever it holds of its members holds of every value. -/
theorem induct_members {P : Value → Prop}
    (h : ∀ v, (∀ k w, v.member? k = some w → P w) → P v) (v : Value) : P v :=
  h v fun _ w _ => induct_members h w
termination_by sizeOf v
decreasing_by exact sizeOf_lt_of_member? ‹_›

theorem Ordered.of_member? (h : v.Ordered) (hw : v.member? k = some w) : w.Ordered := by
  cases v with
  | obj ms => exact h.of_get? hw
  | _ => cases hw

theorem Ordered.getD_member? (h : v.Ordered) : ((v.member? k).getD .null).Ordered := by
  cases hk : v.member? k with
  | none => trivial
  | some w => exact h.of_member? hk

theorem Ordered.of_at? (h : v.Ordered) (hw : v.at? p = some w) : w.Ordered := by
  induction p generalizing v with
  | nil => exact Option.some.inj hw ▸ h
  | cons k p ih =>
    obtain ⟨u, hu, hw⟩ := Option.bind_eq_some_iff.1 hw
    exact ih (h.of_member? hu) hw

theorem at?_cons_of_member? (h : v.member? k = some w) : v.at? (k :: p) = w.at? p := by
  rw [at?, h, Option.bind_some]

/-! ## A value in a place of its own -/

/-- The value in a place, and nothing beside it. -/
def nested : List String → Value → Value
  | [], v => v
  | k :: p, v => .obj [(k, nested p v)]

theorem at?_nested : ∀ (p : List String) (v : Value), (nested p v).at? p = some v
  | [], _ => rfl
  | k :: p, v => by
    have hmember : (nested (k :: p) v).member? k = some (nested p v) := if_pos rfl
    rw [at?_cons_of_member? hmember, at?_nested p v]

theorem ordered_nested (h : v.Ordered) : ∀ p : List String, (nested p v).Ordered
  | [] => h
  | _ :: p => ⟨List.pairwise_singleton _ _, ordered_nested h p, trivial⟩

/-- No object has all keys. -/
theorem exists_member?_eq_none (v : Value) : ∃ k, v.member? k = none := by
  cases v with
  | obj ms =>
    obtain ⟨k, hk⟩ := Infinite.exists_notMem_finset (ms.map Prod.fst).toFinset
    exact ⟨k, Entries.get?_eq_none_iff.2 (by simpa using hk)⟩
  | _ => exact ⟨"", rfl⟩

end Json.Value

namespace Config

open Json.Value

variable {base layer a b c v : Value} {k : String}

/-! ## One key of a merge -/

/-- Something that is no object below is like nothing below. -/
theorem merge_of_base (h : base.isObject = false) : merge base layer = layer := by
  cases layer with
  | obj ms => cases base <;> first | rfl | cases h
  | _ => rfl

theorem ordered_merge (hbase : base.Ordered) (hlayer : layer.Ordered) :
    (merge base layer).Ordered :=
  of_merge hereditary_ordered layer hbase hlayer

/-- What is under a key after a merge : what the layer has there, merged into what lies below, and
without that what lies below. -/
def mergeUnder (below : Option Value) : Option Value → Option Value
  | some v => some (merge (below.getD .null) v)
  | none => below

theorem member?_merge_of_isObject (h : layer.Ordered) (hobj : layer.isObject = true) (k : String) :
    (merge base layer).member? k = mergeUnder (base.member? k) (layer.member? k) := by
  cases layer with
  | obj ms =>
    rw [member?_merge h, member?]
    cases Entries.get? k ms <;> rfl
  | _ => cases hobj

/-- A merge with an object is what it is under every key. -/
theorem merge_eq_of_member? (hbase : base.Ordered) (hlayer : layer.Ordered) (hv : v.Ordered)
    (hobj : layer.isObject = true) (hobj' : v.isObject = true)
    (h : ∀ k, mergeUnder (base.member? k) (layer.member? k) = v.member? k) :
    merge base layer = v := by
  refine eq_of_member? (ordered_merge hbase hlayer) hv (by rw [isObject_merge, hobj]) hobj'
    fun k => ?_
  rw [member?_merge_of_isObject hlayer hobj, h]

/-! ## Layers that change nothing -/

theorem merge_empty (h : v.Ordered) : merge (.obj []) v = v := by
  cases hobj : v.isObject with
  | false => exact merge_of_isObject hobj
  | true =>
    have hempty : (Value.obj []).Ordered := ⟨List.Pairwise.nil, trivial⟩
    refine merge_eq_of_member? hempty h h hobj hobj fun k => ?_
    cases v.member? k with
    | none => rfl
    | some w => exact congrArg some (merge_null w)

theorem merge_self (h : v.Ordered) : merge v v = v := by
  induction v using induct_members with
  | h v ih =>
    cases hobj : v.isObject with
    | false => exact merge_of_isObject hobj
    | true =>
      refine merge_eq_of_member? h h h hobj hobj fun k => ?_
      cases hv : v.member? k with
      | none => rfl
      | some w => exact congrArg some (ih k w hv (h.of_member? hv))

/-! ## Layers in either order -/

/-- In every place that both values have, both have objects. -/
def Independent (a b : Value) : Prop :=
  ∀ p v w, a.at? p = some v → b.at? p = some w → v.isObject = true ∧ w.isObject = true

theorem independent_iff : Independent a b ↔ (a.isObject = true ∧ b.isObject = true) ∧
    ∀ k v w, a.member? k = some v → b.member? k = some w → Independent v w := by
  constructor
  · intro h
    refine ⟨h [] a b rfl rfl, fun k v w hv hw p v' w' hv' hw' => h (k :: p) v' w' ?_ ?_⟩
    · rwa [at?_cons_of_member? hv]
    · rwa [at?_cons_of_member? hw]
  · rintro ⟨hobj, h⟩ (_ | ⟨k, p⟩) v w hv hw
    · obtain rfl := Option.some.inj hv
      obtain rfl := Option.some.inj hw
      exact hobj
    · obtain ⟨v', hv', hv⟩ := Option.bind_eq_some_iff.1 hv
      obtain ⟨w', hw', hw⟩ := Option.bind_eq_some_iff.1 hw
      exact h k v' w' hv' hw' p v w hv hw

theorem independent_singleton (hobj : a.isObject = true)
    (h : ∀ w, a.member? k = some w → Independent w v) : Independent a (.obj [(k, v)]) := by
  refine independent_iff.2 ⟨⟨hobj, rfl⟩, fun k' w v' hw hv => ?_⟩
  rw [member?, Entries.get?, Entries.get?, Option.ite_none_right_eq_some] at hv
  obtain ⟨rfl, hv⟩ := hv
  obtain rfl := Option.some.inj hv
  exact h w hw

/-- Independent layers give the same in either order, over any base. -/
theorem merge_comm (hbase : base.Ordered) (ha : a.Ordered) (hb : b.Ordered)
    (h : Independent a b) : merge (merge base a) b = merge (merge base b) a := by
  induction a using induct_members generalizing base b with
  | h a ih =>
    obtain ⟨⟨hobj, hobj'⟩, hmembers⟩ := independent_iff.1 h
    refine merge_eq_of_member? (ordered_merge hbase ha) hb
      (ordered_merge (ordered_merge hbase hb) ha) hobj' (by rw [isObject_merge, hobj]) fun k => ?_
    rw [member?_merge_of_isObject ha hobj, member?_merge_of_isObject ha hobj,
      member?_merge_of_isObject hb hobj']
    cases hv : a.member? k with
    | none => rfl
    | some v =>
      cases hw : b.member? k with
      | none => rfl
      | some w =>
        exact congrArg some (ih k v hv hbase.getD_member? (ha.of_member? hv) (hb.of_member? hw)
          (hmembers k v w hv hw))

/-! ## The upper layers first -/

/-- The upper value has an object in a place where the lower one has something else. -/
def Reopens (lower upper : Value) : Prop :=
  ∃ p v w, lower.at? p = some v ∧ v.isObject = false ∧ upper.at? p = some w ∧ w.isObject = true

theorem reopens_iff : Reopens b c ↔ (b.isObject = false ∧ c.isObject = true) ∨
    ∃ k v w, b.member? k = some v ∧ c.member? k = some w ∧ Reopens v w := by
  constructor
  · rintro ⟨_ | ⟨k, p⟩, v, w, hv, hobj, hw, hobj'⟩
    · obtain rfl := Option.some.inj hv
      obtain rfl := Option.some.inj hw
      exact .inl ⟨hobj, hobj'⟩
    · obtain ⟨v', hv', hv⟩ := Option.bind_eq_some_iff.1 hv
      obtain ⟨w', hw', hw⟩ := Option.bind_eq_some_iff.1 hw
      exact .inr ⟨k, v', w', hv', hw', p, v, w, hv, hobj, hw, hobj'⟩
  · rintro (⟨hobj, hobj'⟩ | ⟨k, v, w, hv, hw, p, v', w', hv', hobj, hw', hobj'⟩)
    · exact ⟨[], b, c, rfl, hobj, rfl, hobj'⟩
    · refine ⟨k :: p, v', w', ?_, hobj, ?_, hobj'⟩
      · rwa [at?_cons_of_member? hv]
      · rwa [at?_cons_of_member? hw]

theorem Reopens.of_singleton (h : Reopens (.obj [(k, v)]) c) :
    ∃ w, c.member? k = some w ∧ Reopens v w := by
  obtain ⟨hobj, -⟩ | ⟨k', v', w, hv, hw, h⟩ := reopens_iff.1 h
  · cases hobj
  · rw [member?, Entries.get?, Entries.get?, Option.ite_none_right_eq_some] at hv
    obtain ⟨rfl, hv⟩ := hv
    obtain rfl := Option.some.inj hv
    exact ⟨w, hw, h⟩

theorem not_reopens_self (v : Value) : ¬Reopens v v := by
  rintro ⟨p, w, w', hw, hobj, hw', hobj'⟩
  obtain rfl := Option.some.inj (hw.symm.trans hw')
  rw [hobj] at hobj'
  cases hobj'

/-- Unless the topmost value reopens what the middle one cuts off, the upper two can be merged
first. -/
theorem merge_assoc (ha : a.Ordered) (hb : b.Ordered) (hc : c.Ordered) (h : ¬Reopens b c) :
    merge (merge a b) c = merge a (merge b c) := by
  induction c using induct_members generalizing a b with
  | h c ih =>
    cases hobj : c.isObject with
    | false =>
      rw [merge_of_isObject hobj, merge_of_isObject hobj, merge_of_isObject hobj]
    | true =>
      rw [reopens_iff, not_or, not_and', Bool.not_eq_false] at h
      obtain ⟨hcut, hmembers⟩ := h
      have hobj' := hcut hobj
      have hobjs : (merge b c).isObject = true := by rw [isObject_merge, hobj]
      have hbc := ordered_merge hb hc
      refine merge_eq_of_member? (ordered_merge ha hb) hc (ordered_merge ha hbc) hobj
        (by rw [isObject_merge, hobjs]) fun k => ?_
      rw [member?_merge_of_isObject hb hobj', member?_merge_of_isObject hbc hobjs,
        member?_merge_of_isObject hc hobj]
      cases hw : c.member? k with
      | none => rfl
      | some w =>
        cases hv : b.member? k with
        | none => exact congrArg (fun u => some (merge _ u)) (merge_null w).symm
        | some v =>
          exact congrArg some (ih k w hw ha.getD_member? (hb.of_member? hv) (hc.of_member? hw)
            fun hr => hmembers ⟨k, v, w, hv, hw, hr⟩)

/-- Where the topmost value reopens what the middle one cuts off, the lowest one shows if the upper
two are merged first, and not else. -/
theorem exists_merge_ne (hb : b.Ordered) (hc : c.Ordered) (h : Reopens b c) :
    ∃ a : Value, a.Ordered ∧ merge (merge a b) c ≠ merge a (merge b c) := by
  obtain ⟨p, v, w, hv, hobj, hw, hobj'⟩ := h
  obtain ⟨k, hk⟩ := exists_member?_eq_none w
  have hone : (Value.obj [(k, .null)]).Ordered := ⟨List.pairwise_singleton _ _, trivial, trivial⟩
  obtain ⟨a, ha, hat⟩ : ∃ a : Value, a.Ordered ∧ a.at? p = some (.obj [(k, .null)]) :=
    ⟨nested p _, ordered_nested hone p, at?_nested p _⟩
  refine ⟨a, ha, fun heq => ?_⟩
  have hleft : (merge (merge a b) c).at? p = some w := by
    rw [at?_merge_of_some hc hw, at?_merge_of_some hb hv, merge_of_isObject hobj, Option.getD_some,
      merge_of_base hobj]
  have hupper : (merge b c).at? p = some w := by
    rw [at?_merge_of_some hc hw, hv, Option.getD_some, merge_of_base hobj]
  have hright : (merge a (merge b c)).at? p = some (merge (.obj [(k, .null)]) w) := by
    rw [at?_merge_of_some (ordered_merge hb hc) hupper, hat, Option.getD_some]
  rw [heq, hright, Option.some.injEq] at hleft
  have hmember : (merge (.obj [(k, .null)]) w).member? k = some .null := by
    rw [member?_merge_of_isObject (hc.of_at? hw) hobj', hk]
    exact if_pos rfl
  rw [hleft, hk] at hmember
  cases hmember

/-- The upper two of three values can be merged first, whatever the lowest is, exactly if the
topmost does not reopen what the middle one cuts off. -/
theorem merge_assoc_iff (hb : b.Ordered) (hc : c.Ordered) :
    (∀ a : Value, a.Ordered → merge (merge a b) c = merge a (merge b c)) ↔ ¬Reopens b c := by
  constructor
  · intro h hr
    obtain ⟨a, ha, hne⟩ := exists_merge_ne hb hc hr
    exact hne (h a ha)
  · exact fun h a ha => merge_assoc ha hb hc h

end Config

end Courier
