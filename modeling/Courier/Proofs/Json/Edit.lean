import Courier.Proofs.Json.Leaves

/-!
# Values with other leaves

`Value.mapLeaves` puts another leaf in the place of every leaf of a value. The walk of the leaves
comes by the same paths after that (`leaves_mapLeaves`), and a path leads to the part it led to
before, with the leaves below it replaced (`descend?_mapLeaves`). Both name the items of an array
by their numbers, and a number has one spelling only (`toDigits_of_index?`).
-/

namespace Courier.Json

/-! ## Keys of items -/

namespace Pointer

/-- A digit is that of its number, which is below ten. -/
theorem toDigits_of_isDigit {c : Char} (h : c.isDigit = true) :
    c.toNat - 48 < 10 ∧ Nat.toDigits 10 (c.toNat - 48) = [c] := by
  have hrange : '0'.val ≤ c.val ∧ c.val ≤ '9'.val := by simpa [Char.isDigit] using h
  obtain ⟨hle, hle'⟩ : 48 ≤ c.toNat ∧ c.toNat ≤ 57 := hrange
  have hlt : c.toNat - 48 < 10 := by omega
  have hchar : Nat.digitChar (c.toNat - 48) = c := by
    rw [← Char.toNat_inj, Nat.toNat_digitChar_of_lt_ten hlt]
    omega
  exact ⟨hlt, by rw [Nat.toDigits_of_lt_base hlt, hchar]⟩

/-- Digits that follow the digits of a number above zero. -/
theorem toDigits_ofDigitChars {cs : List Char} (hdigits : ∀ c ∈ cs, c.isDigit = true) {n : Nat}
    (hn : 0 < n) : Nat.toDigits 10 (Nat.ofDigitChars 10 cs n) = Nat.toDigits 10 n ++ cs := by
  induction cs generalizing n with
  | nil => rw [Nat.ofDigitChars_nil, List.append_nil]
  | cons c cs ih =>
    obtain ⟨hlt, hc⟩ := toDigits_of_isDigit (hdigits c List.mem_cons_self)
    have hcs : ∀ d ∈ cs, d.isDigit = true := fun d hd => hdigits d (List.mem_cons_of_mem c hd)
    have hnext : Nat.toDigits 10 (10 * n + (c.toNat - 48)) = Nat.toDigits 10 n ++ [c] := by
      rw [← Nat.toDigits_append_toDigits (by decide) hn hlt, hc]
    rw [Nat.ofDigitChars_cons, ih hcs (Nat.add_pos_left (Nat.mul_pos (by decide) hn) _)]
    exact (congrArg (· ++ cs) hnext).trans (List.append_cons _ c cs).symm

/-- A key spells a number only by its digits. -/
theorem toDigits_of_index? {key : List Char} {i : Nat} (h : index? key = some i) :
    Nat.toDigits 10 i = key := by
  unfold index? at h
  split at h
  · cases h
  · next hkey =>
    simp only [Bool.or_eq_true, List.isEmpty_iff, Bool.not_eq_true', not_or, Bool.and_eq_true,
      decide_eq_true_eq, not_and, Bool.not_eq_false, List.all_eq_true, beq_iff_eq, not_not] at hkey
    obtain ⟨⟨hne, hdigits⟩, hzero⟩ := hkey
    obtain ⟨c, cs, rfl⟩ := List.exists_cons_of_ne_nil hne
    obtain rfl := Option.some.inj h
    obtain ⟨-, hfirst⟩ := toDigits_of_isDigit (hdigits c List.mem_cons_self)
    have hval : Nat.toDigits 10 (Nat.ofDigitChars 10 cs (c.toNat - 48)) = c :: cs := by
      rcases Nat.eq_zero_or_pos (c.toNat - 48) with hc0 | hpos
      · rw [hc0, Nat.toDigits_zero] at hfirst
        obtain rfl := (List.cons.inj hfirst).1
        obtain rfl : cs = [] := List.length_eq_zero_iff.1 (Nat.succ.inj (hzero rfl))
        rfl
      · rw [toDigits_ofDigitChars (fun d hd => hdigits d (List.mem_cons_of_mem c hd)) hpos, hfirst]
        rfl
    rwa [Nat.ofDigitChars_eq_foldl, ← Nat.zero_add (c.toNat - 48)] at hval

end Pointer

namespace Value

/-! ## Replacing leaves -/

mutual

/-- The value with `f path leaf` in the place of each leaf. -/
def mapLeaves (f : List String → Value → Value) : Value → Value
  | .arr items => .arr (mapLeavesOfItems f 0 items)
  | .obj members => .obj (mapLeavesOfMembers f members)
  | v => f [] v

/-- The items of an array, from the `i`-th on, with other leaves. -/
def mapLeavesOfItems (f : List String → Value → Value) (i : Nat) : List Value → List Value
  | [] => []
  | v :: rest =>
    v.mapLeaves (fun p => f (String.ofList (Nat.toDigits 10 i) :: p))
      :: mapLeavesOfItems f (i + 1) rest

/-- The members of an object with other leaves. -/
def mapLeavesOfMembers (f : List String → Value → Value) :
    List (String × Value) → List (String × Value)
  | [] => []
  | (k, v) :: rest => (k, v.mapLeaves fun p => f (k :: p)) :: mapLeavesOfMembers f rest

end

variable {f : List String → Value → Value}

theorem mapLeaves_of_isLeaf {v : Value} (h : v.isLeaf = true) : v.mapLeaves f = f [] v := by
  cases v <;> first | rfl | cases h

theorem child?_of_isLeaf {v : Value} (h : v.isLeaf = true) (k : String) : v.child? k = none := by
  cases v <;> first | rfl | cases h

mutual

/-- Leaves that are replaced by themselves. -/
theorem mapLeaves_self : ∀ v : Value, (v.mapLeaves fun _ leaf => leaf) = v
  | .arr items => by rw [mapLeaves, mapLeavesOfItems_self]
  | .obj members => by rw [mapLeaves, mapLeavesOfMembers_self]
  | .null | .bool _ | .num _ | .str _ => rfl

theorem mapLeavesOfItems_self : ∀ (i : Nat) (items : List Value),
    mapLeavesOfItems (fun _ leaf => leaf) i items = items
  | _, [] => rfl
  | i, v :: rest => by rw [mapLeavesOfItems, mapLeaves_self, mapLeavesOfItems_self]

theorem mapLeavesOfMembers_self : ∀ members : List (String × Value),
    mapLeavesOfMembers (fun _ leaf => leaf) members = members
  | [] => rfl
  | (k, v) :: rest => by rw [mapLeavesOfMembers, mapLeaves_self, mapLeavesOfMembers_self]

end

/-! ## The walk of the leaves -/

mutual

/-- The walk comes by the same paths, and by the leaves that stand there now. -/
theorem leaves_mapLeaves : ∀ {f : List String → Value → Value} (v : Value),
    (∀ p leaf, leaf.isLeaf = true → (f p leaf).isLeaf = true) →
    (v.mapLeaves f).leaves = v.leaves.map fun l => (l.1, f l.1 l.2)
  | f, .arr items, hf => by rw [mapLeaves, leaves, leavesOfItems_mapLeaves 0 items hf, leaves]
  | f, .obj members, hf => by rw [mapLeaves, leaves, leavesOfMembers_mapLeaves members hf, leaves]
  | f, .null, hf | f, .bool _, hf | f, .num _, hf | f, .str _, hf => by
    rw [mapLeaves_of_isLeaf rfl, leaves_of_isLeaf (hf [] _ rfl)]
    rfl

theorem leavesOfItems_mapLeaves : ∀ {f : List String → Value → Value} (i : Nat)
    (items : List Value), (∀ p leaf, leaf.isLeaf = true → (f p leaf).isLeaf = true) →
    leavesOfItems i (mapLeavesOfItems f i items) =
      (leavesOfItems i items).map fun l => (l.1, f l.1 l.2)
  | f, i, [], hf => rfl
  | f, i, v :: rest, hf => by
    rw [mapLeavesOfItems, leavesOfItems, leaves_mapLeaves v fun p => hf (_ :: p),
      leavesOfItems_mapLeaves (i + 1) rest hf, leavesOfItems, List.map_append, List.map_map,
      List.map_map]
    rfl

theorem leavesOfMembers_mapLeaves : ∀ {f : List String → Value → Value}
    (members : List (String × Value)),
    (∀ p leaf, leaf.isLeaf = true → (f p leaf).isLeaf = true) →
    leavesOfMembers (mapLeavesOfMembers f members) =
      (leavesOfMembers members).map fun l => (l.1, f l.1 l.2)
  | f, [], hf => rfl
  | f, (k, v) :: rest, hf => by
    rw [mapLeavesOfMembers, leavesOfMembers, leaves_mapLeaves v fun p => hf (k :: p),
      leavesOfMembers_mapLeaves rest hf, leavesOfMembers, List.map_append, List.map_map,
      List.map_map]
    rfl

end

/-! ## Places -/

theorem getElem?_mapLeavesOfItems (i n : Nat) (items : List Value) :
    (mapLeavesOfItems f n items)[i]? =
      items[i]?.map (mapLeaves fun p => f (String.ofList (Nat.toDigits 10 (n + i)) :: p)) := by
  induction items generalizing i n with
  | nil => simp [mapLeavesOfItems]
  | cons v rest ih =>
    cases i with
    | zero => simp [mapLeavesOfItems]
    | succ i => simp [mapLeavesOfItems, ih, Nat.add_assoc, Nat.add_comm 1]

theorem get?_mapLeavesOfMembers (k : String) (members : List (String × Value)) :
    Entries.get? k (mapLeavesOfMembers f members) =
      (Entries.get? k members).map (mapLeaves fun p => f (k :: p)) := by
  induction members with
  | nil => rfl
  | cons m rest ih =>
    obtain ⟨k', v⟩ := m
    rw [mapLeavesOfMembers, Entries.get?, Entries.get?]
    split
    · next hk => rw [hk, Option.map_some]
    · exact ih

variable (hf : ∀ p leaf, leaf.isLeaf = true → (f p leaf).isLeaf = true)

include hf

theorem child?_mapLeaves (v : Value) (k : String) :
    (v.mapLeaves f).child? k = (v.child? k).map (mapLeaves fun p => f (k :: p)) := by
  cases v with
  | obj members => exact get?_mapLeavesOfMembers k members
  | arr items =>
    rw [mapLeaves, child?, child?]
    cases hk : Pointer.index? k.toList with
    | none => rfl
    | some i =>
      have hkey : String.ofList (Nat.toDigits 10 i) = k := by
        rw [Pointer.toDigits_of_index? hk, String.ofList_toList]
      simp [getElem?_mapLeavesOfItems, hkey]
  | _ =>
    rw [mapLeaves_of_isLeaf rfl, child?_of_isLeaf (hf [] _ rfl)]
    rfl

/-- A path leads to what it led to before, with the leaves below it replaced. -/
theorem descend?_mapLeaves (v : Value) (path : List String) :
    (v.mapLeaves f).descend? path = (v.descend? path).map (mapLeaves fun p => f (path ++ p)) := by
  induction path generalizing v f with
  | nil => rfl
  | cons k path ih =>
    rw [descend?, descend?, child?_mapLeaves hf]
    cases v.child? k with
    | none => rfl
    | some w => exact ih (fun p => hf (k :: p)) w

end Value

end Courier.Json
