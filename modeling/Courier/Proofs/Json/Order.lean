import Courier.Json.Pointer
import Courier.Proofs.Dict

/-!
# What the values in use have in common

In an ordered value no object has a key twice, so that ordered values with the same contents
are equal (`Alike.eq_of_ordered`); in a finite one every number is finite. Both are properties
that an object keeps when a value that has them is inserted, and that its members have with it
(`Hereditary`), so what is built or merged by insertions has them.
-/

namespace Courier.Json.Value

variable {k : String} {v : Value} {ms : List (String × Value)} {vs : List Value}

/-! ## Order -/

theorem orderedMembers_iff : OrderedMembers ms ↔ ∀ m ∈ ms, m.2.Ordered := by
  induction ms with
  | nil => simp [OrderedMembers]
  | cons m rest ih => simp [OrderedMembers, ih]

theorem orderedItems_iff : OrderedItems vs ↔ ∀ v ∈ vs, v.Ordered := by
  induction vs with
  | nil => simp [OrderedItems]
  | cons v rest ih => simp [OrderedItems, ih]

/-- An object is ordered if its keys are and all its values are. -/
theorem ordered_obj_iff : (obj ms).Ordered ↔ Entries.Ordered ms ∧ ∀ m ∈ ms, m.2.Ordered := by
  rw [← orderedMembers_iff]
  exact Iff.rfl

theorem Ordered.of_get? (h : (obj ms).Ordered) (hv : Entries.get? k ms = some v) : v.Ordered :=
  (ordered_obj_iff.1 h).2 _ (Entries.mem_of_get? hv)

/-! ## Contents -/

theorem sizeOf_lt_of_member? {w : Value} (h : v.member? k = some w) : sizeOf w < sizeOf v := by
  cases v with
  | obj ms =>
    have hmem := List.sizeOf_lt_of_mem (Entries.mem_of_get? h)
    rw [Prod.mk.sizeOf_spec] at hmem
    rw [obj.sizeOf_spec]
    omega
  | _ => cases h

/-- Values with the same contents : arrays item by item, objects as maps from their keys, in
whatever order the members are. Numbers are the same if they are of one kind and equal, floats if
they have the same bit pattern, so that `0.0` and `-0.0` are different values. -/
inductive Alike : Value → Value → Prop
  | null : Alike .null .null
  | bool (b : Bool) : Alike (.bool b) (.bool b)
  | num (n : Number) : Alike (.num n) (.num n)
  | str (s : String) : Alike (.str s) (.str s)
  | arr {vs ws : List Value} : vs.length = ws.length →
      (∀ (i : Nat) v w, vs[i]? = some v → ws[i]? = some w → Alike v w) → Alike (.arr vs) (.arr ws)
  | obj {ms ns : List (String × Value)} : (∀ k, k ∈ ms.map Prod.fst ↔ k ∈ ns.map Prod.fst) →
      (∀ k v w, Entries.get? k ms = some v → Entries.get? k ns = some w → Alike v w) →
      Alike (.obj ms) (.obj ns)

theorem Alike.refl : ∀ v : Value, v.Alike v
  | .null => .null
  | .bool b => .bool b
  | .num n => .num n
  | .str s => .str s
  | .arr vs => .arr rfl fun i v w hv hw => by
    have hmem := List.mem_of_getElem? hv
    obtain rfl := Option.some.inj (hv.symm.trans hw)
    exact Alike.refl v
  | .obj ms => .obj (fun _ => Iff.rfl) fun k v w hv hw => by
    have hsize : sizeOf v < 1 + sizeOf ms := by
      rw [← Value.obj.sizeOf_spec]
      exact sizeOf_lt_of_member? hv
    obtain rfl := Option.some.inj (hv.symm.trans hw)
    exact Alike.refl v

/-- Ordered values with the same contents are equal. -/
theorem Alike.eq_of_ordered {w : Value} (h : v.Alike w) (hv : v.Ordered) (hw : w.Ordered) :
    v = w := by
  induction h with
  | null => rfl
  | bool b => rfl
  | num n => rfl
  | str s => rfl
  | @arr vs ws hlen _ ih =>
    refine congrArg Value.arr (List.ext_getElem hlen fun i hi hi' => ?_)
    have hget := List.getElem?_eq_getElem hi
    have hget' := List.getElem?_eq_getElem hi'
    exact ih i _ _ hget hget' (orderedItems_iff.1 hv _ (List.mem_of_getElem? hget))
      (orderedItems_iff.1 hw _ (List.mem_of_getElem? hget'))
  | @obj ms ns hkeys _ ih =>
    refine congrArg Value.obj (Entries.ext_get? (ordered_obj_iff.1 hv).1 (ordered_obj_iff.1 hw).1
      fun k => ?_)
    cases hm : Entries.get? k ms with
    | none =>
      rw [Entries.get?_eq_none_iff, hkeys, ← Entries.get?_eq_none_iff] at hm
      exact hm.symm
    | some v =>
      have hn : Entries.get? k ns ≠ none := by
        rw [Ne, Entries.get?_eq_none_iff, ← hkeys, ← Entries.get?_eq_none_iff, hm]
        exact Option.some_ne_none v
      obtain ⟨w, hn⟩ := Option.ne_none_iff_exists'.1 hn
      rw [hn, ih k v w hm hn (hv.of_get? hm) (hw.of_get? hn)]

/-! ## Finite numbers -/

mutual
/-- Whether every number in the value is finite. -/
def Finite : Value → Prop
  | .num (.double d) => d.isFinite = true
  | .arr items => FiniteItems items
  | .obj members => FiniteMembers members
  | _ => True

/-- `Finite` for each value of a list. -/
def FiniteItems : List Value → Prop
  | [] => True
  | v :: rest => v.Finite ∧ FiniteItems rest

/-- `Finite` for each value of a list of members. -/
def FiniteMembers : List (String × Value) → Prop
  | [] => True
  | (_, v) :: rest => v.Finite ∧ FiniteMembers rest
end

theorem finiteItems_iff : FiniteItems vs ↔ ∀ v ∈ vs, v.Finite := by
  induction vs with
  | nil => simp [FiniteItems]
  | cons v rest ih => simp [FiniteItems, ih]

theorem finite_obj_iff : (obj ms).Finite ↔ ∀ m ∈ ms, m.2.Finite := by
  show FiniteMembers ms ↔ _
  induction ms with
  | nil => simp [FiniteMembers]
  | cons m rest ih => simp [FiniteMembers, ih]

/-! ## Properties that go up and down -/

/-- Objects keep the property when a value with it is inserted, and their members have it. -/
structure Hereditary (P : Value → Prop) : Prop where
  insert : ∀ {k v ms}, P (.obj ms) → P v → P (.obj (Entries.insert k v ms))
  member : ∀ {m ms}, P (.obj ms) → m ∈ ms → P m.2

theorem hereditary_ordered : Hereditary Ordered where
  insert {k v ms} h hv := by
    obtain ⟨hk, hm⟩ := ordered_obj_iff.1 h
    refine ordered_obj_iff.2 ⟨Entries.ordered_insert k v hk, fun m hmem => ?_⟩
    rcases Entries.fst_mem_insert hmem with rfl | hmem
    · exact hv
    · exact hm m hmem
  member h hm := (ordered_obj_iff.1 h).2 _ hm

theorem hereditary_finite : Hereditary Finite where
  insert {k v ms} h hv := by
    refine finite_obj_iff.2 fun m hmem => ?_
    rcases Entries.fst_mem_insert hmem with rfl | hmem
    · exact hv
    · exact finite_obj_iff.1 h m hmem
  member h hm := finite_obj_iff.1 h _ hm

end Courier.Json.Value
