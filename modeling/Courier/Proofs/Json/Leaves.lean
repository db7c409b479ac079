import Courier.Proofs.Json.Order

/-!
# The leaves of a value

A value has parts, at any depth : itself, the parts of the items of an array and those of the
members of an object (`Part`), each in a place, the path of the numbers of items and the keys of
members on the way to it (`Occurs`). The walk of the leaves misses none of them : it lists exactly
the places of the parts that are neither arrays nor objects (`mem_leaves_iff`). In an ordered value
the keys of objects lead to every part, up to the value in their place that is no object
(`part_iff_at?`).
-/

namespace Courier.Json.Value

/-- The second value stands somewhere in the first, or is it. -/
inductive Part : Value → Value → Prop
  | refl (v : Value) : Part v v
  | item {items : List Value} {v w : Value} : v ∈ items → Part v w → Part (.arr items) w
  | member {members : List (String × Value)} {k : String} {v w : Value} : (k, v) ∈ members →
      Part v w → Part (.obj members) w

variable {v w : Value}

theorem leaves_of_isLeaf (h : v.isLeaf = true) : v.leaves = [([], v)] := by
  cases v <;> first | rfl | cases h

theorem leavesOfItems_append (i : Nat) (vs ws : List Value) :
    leavesOfItems i (vs ++ ws) = leavesOfItems i vs ++ leavesOfItems (i + vs.length) ws := by
  induction vs generalizing i with
  | nil => simp [leavesOfItems]
  | cons v vs ih => simp [leavesOfItems, ih, Nat.add_assoc, Nat.add_comm 1]

theorem leavesOfMembers_append (ms ns : List (String × Value)) :
    leavesOfMembers (ms ++ ns) = leavesOfMembers ms ++ leavesOfMembers ns := by
  induction ms with
  | nil => simp [leavesOfMembers]
  | cons m ms ih =>
    obtain ⟨k, v⟩ := m
    simp [leavesOfMembers, ih]

/-- The walk of the items from the `i`-th on comes by those of each, below its number. -/
theorem mem_leavesOfItems_iff {p : List String} {i : Nat} {items : List Value} :
    (p, w) ∈ leavesOfItems i items ↔ ∃ j v q, items[j]? = some v ∧ (q, w) ∈ v.leaves ∧
      p = String.ofList (Nat.toDigits 10 (i + j)) :: q := by
  induction items generalizing i with
  | nil => simp [leavesOfItems]
  | cons v rest ih =>
    rw [leavesOfItems, List.mem_append, ih, List.mem_map]
    constructor
    · rintro (⟨⟨q, w⟩, hq, h⟩ | ⟨j, u, q, hu, hq, rfl⟩)
      · obtain ⟨rfl, rfl⟩ := Prod.mk.inj h
        exact ⟨0, v, q, rfl, hq, rfl⟩
      · exact ⟨j + 1, u, q, hu, hq, by rw [Nat.add_assoc, Nat.add_comm 1]⟩
    · rintro ⟨_ | j, u, q, hu, hq, rfl⟩
      · obtain rfl := Option.some.inj hu
        exact .inl ⟨(q, w), hq, rfl⟩
      · exact .inr ⟨j, u, q, hu, hq, by rw [Nat.add_assoc, Nat.add_comm 1]⟩

/-- The walk of the members comes by those of each, below its key. -/
theorem mem_leavesOfMembers_iff {p : List String} {members : List (String × Value)} :
    (p, w) ∈ leavesOfMembers members ↔
      ∃ k v q, (k, v) ∈ members ∧ (q, w) ∈ v.leaves ∧ p = k :: q := by
  induction members with
  | nil => simp [leavesOfMembers]
  | cons m rest ih =>
    obtain ⟨k, v⟩ := m
    rw [leavesOfMembers, List.mem_append, ih, List.mem_map]
    constructor
    · rintro (⟨⟨q, w⟩, hq, h⟩ | ⟨k', u, q, hu, hq, rfl⟩)
      · obtain ⟨rfl, rfl⟩ := Prod.mk.inj h
        exact ⟨k, v, q, List.mem_cons_self, hq, rfl⟩
      · exact ⟨k', u, q, List.mem_cons_of_mem _ hu, hq, rfl⟩
    · rintro ⟨k', u, q, hu, hq, rfl⟩
      rcases List.mem_cons.1 hu with h | hu
      · obtain ⟨rfl, rfl⟩ := Prod.mk.inj h
        exact .inl ⟨(q, w), hq, rfl⟩
      · exact .inr ⟨k', u, q, hu, hq, rfl⟩

/-- The second value stands in the first at a place : the path of the numbers of items and the keys
of members that lead to it. -/
inductive Occurs : Value → List String → Value → Prop
  | root (v : Value) : Occurs v [] v
  | item {items : List Value} {i : Nat} {v w : Value} {p : List String} : items[i]? = some v →
      Occurs v p w → Occurs (.arr items) (String.ofList (Nat.toDigits 10 i) :: p) w
  | member {members : List (String × Value)} {k : String} {v w : Value} {p : List String} :
      (k, v) ∈ members → Occurs v p w → Occurs (.obj members) (k :: p) w

/-- The leaves of a value are its parts that are neither arrays nor objects, in their places. -/
theorem mem_leaves_iff {p : List String} :
    (p, w) ∈ v.leaves ↔ Occurs v p w ∧ w.isLeaf = true := by
  constructor
  · intro h
    induction p generalizing v with
    | nil =>
      cases v with
      | arr items =>
        obtain ⟨j, u, q, -, -, hp⟩ := mem_leavesOfItems_iff.1 h
        cases hp
      | obj members =>
        obtain ⟨k, u, q, -, -, hp⟩ := mem_leavesOfMembers_iff.1 h
        cases hp
      | _ =>
        obtain ⟨-, rfl⟩ := Prod.mk.inj (List.mem_singleton.1 h)
        exact ⟨.root _, rfl⟩
    | cons k p ih =>
      cases v with
      | arr items =>
        obtain ⟨j, u, q, hu, hq, hp⟩ := mem_leavesOfItems_iff.1 h
        obtain ⟨rfl, rfl⟩ := List.cons.inj hp
        rw [Nat.zero_add]
        exact (ih hq).imp_left (.item hu)
      | obj members =>
        obtain ⟨k', u, q, hu, hq, hp⟩ := mem_leavesOfMembers_iff.1 h
        obtain ⟨rfl, rfl⟩ := List.cons.inj hp
        exact (ih hq).imp_left (.member hu)
      | _ => cases (Prod.mk.inj (List.mem_singleton.1 h)).1
  · rintro ⟨h, hw⟩
    induction h with
    | root v => simp [leaves_of_isLeaf hw]
    | item hv _ ih => exact mem_leavesOfItems_iff.2 ⟨_, _, _, hv, ih hw, by rw [Nat.zero_add]⟩
    | member hv _ ih => exact mem_leavesOfMembers_iff.2 ⟨_, _, _, hv, ih hw, rfl⟩

/-- The parts of a value are what stands in its places. -/
theorem part_iff_occurs : Part v w ↔ ∃ p, Occurs v p w := by
  constructor
  · intro h
    induction h with
    | refl v => exact ⟨[], .root v⟩
    | item hv _ ih =>
      obtain ⟨p, hp⟩ := ih
      obtain ⟨i, hi⟩ := List.mem_iff_getElem?.1 hv
      exact ⟨_, .item hi hp⟩
    | member hv _ ih =>
      obtain ⟨p, hp⟩ := ih
      exact ⟨_, .member hv hp⟩
  · rintro ⟨p, h⟩
    induction h with
    | root v => exact .refl v
    | item hv _ ih => exact .item (List.mem_of_getElem? hv) ih
    | member hv _ ih => exact .member hv ih

/-- The leaves of a value are its parts that are neither arrays nor objects. -/
theorem exists_mem_leaves_iff : (∃ p, (p, w) ∈ v.leaves) ↔ Part v w ∧ w.isLeaf = true := by
  simp only [mem_leaves_iff, part_iff_occurs, exists_and_right]

/-! ## Places of parts -/

theorem Part.trans {u : Value} (h : Part u v) (h' : Part v w) : Part u w := by
  induction h with
  | refl => exact h'
  | item hv _ ih => exact .item hv (ih h')
  | member hv _ ih => exact .member hv (ih h')

theorem part_of_at? {p : List String} (h : v.at? p = some w) : Part v w := by
  induction p generalizing v with
  | nil =>
    obtain rfl := Option.some.inj h
    exact .refl v
  | cons k p ih =>
    obtain ⟨u, hu, hw⟩ := Option.bind_eq_some_iff.1 h
    cases v with
    | obj members => exact .member (Entries.mem_of_get? hu) (ih hw)
    | _ => cases hu

/-- The parts of an ordered value that are no objects are those of the values that are no objects
in the places of the value. -/
theorem part_iff_at? (hv : v.Ordered) (hw : w.isObject = false) :
    Part v w ↔ ∃ p u, v.at? p = some u ∧ u.isObject = false ∧ Part u w := by
  constructor
  · intro h
    induction h with
    | refl v => exact ⟨[], v, rfl, hw, .refl v⟩
    | item hmem h => exact ⟨[], _, rfl, rfl, .item hmem h⟩
    | @member members k v w hmem _ ih =>
      obtain ⟨hkeys, hvalues⟩ := ordered_obj_iff.1 hv
      obtain ⟨p, u, hu, hobj, hpart⟩ := ih (hvalues _ hmem) hw
      refine ⟨k :: p, u, ?_, hobj, hpart⟩
      have hk : (obj members).member? k = some v := (Entries.get?_eq_some_iff hkeys).2 hmem
      rw [at?, hk]
      exact hu
  · rintro ⟨p, u, hu, -, hpart⟩
    exact (part_of_at? hu).trans hpart

end Courier.Json.Value
