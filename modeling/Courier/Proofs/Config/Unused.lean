import Courier.Config.Unused
import Courier.Proofs.Config.Settings

/-!
# Unused leaves are not read

What a registry covers stays when leaves are replaced that are unused against it : a path that is
covered leads to the same value as before (`descend?_replaceLeaves`). The registry of the settings
covers the six places that they are read from, so settings are resolved alike then, with the same
lookups, and the report on the value does not change (`resolve_replaceLeaves`).
-/

namespace Courier.Config

open Json (Value)
open Json.Value

variable {registry : List String} {edits : String → Option Value} {v : Value}

/-! ## What a registry covers -/

/-- A pointer covers those that go on after it, with a slash or not at all. -/
theorem covers_iff {upper pointer : String} : covers upper pointer = true ↔
    upper = "/" ∨ ∃ rest, pointer.toList = upper.toList ++ rest ∧ rest.head?.all (· == '/') := by
  simp only [covers, Bool.or_eq_true, beq_iff_eq, Bool.and_eq_true, List.isPrefixOf_iff_prefix]
  refine or_congr_right ⟨?_, ?_⟩
  · rintro ⟨⟨rest, hrest⟩, hhead⟩
    rw [← hrest, List.drop_left] at hhead
    exact ⟨rest, hrest.symm, hhead⟩
  · rintro ⟨rest, hrest, hhead⟩
    rw [hrest, List.drop_left]
    exact ⟨List.prefix_append _ _, hhead⟩

/-- A pointer of the registry covers the leaf at a path, and all that lie below it. -/
def Covered (registry : List String) (path : List String) : Prop :=
  ∃ upper ∈ registry, covers (normalize upper) (leafPointer path) = true

theorem ofPath_append (p q : List String) :
    Json.Pointer.ofPath (p ++ q) = Json.Pointer.ofPath p ++ Json.Pointer.ofPath q :=
  List.flatMap_append

/-- What lies below a covered path is covered. -/
theorem Covered.append {p : List String} (h : Covered registry p) (hp : p ≠ []) (q : List String) :
    Covered registry (p ++ q) := by
  obtain ⟨upper, hupper, hcovers⟩ := h
  refine ⟨upper, hupper, covers_iff.2 ((covers_iff.1 hcovers).imp_right ?_)⟩
  rintro ⟨rest, hrest, hhead⟩
  refine ⟨rest ++ Json.Pointer.ofPath q, ?_, ?_⟩
  · have hpq : p ++ q ≠ [] := List.append_ne_nil_of_left_ne_nil hp q
    simp only [leafPointer, List.isEmpty_iff, hp, hpq, if_false, String.toList_ofList] at hrest ⊢
    rw [ofPath_append, hrest, List.append_assoc]
  · cases rest with
    | cons c rest => exact hhead
    | nil => cases q <;> rfl

theorem mem_consumed_iff : pointer ∈ (unusedReport registry v).consumed ↔
    ∃ upper ∈ registry, normalize upper = pointer := by
  rw [unusedReport, KeySet.mem_ofList, List.mem_map]

/-- The unused leaves are those that no pointer of the registry covers. -/
theorem mem_unused_iff {pointer : String} : pointer ∈ (unusedReport registry v).unused ↔
    (∃ l ∈ v.leaves, leafPointer l.1 = pointer) ∧
      ∀ upper ∈ registry, covers (normalize upper) pointer = false := by
  have hconsumed : (KeySet.ofList (registry.map normalize)).toList.any (covers · pointer) = false ↔
      ∀ upper ∈ registry, covers (normalize upper) pointer = false := by
    simp only [List.any_eq_false, Bool.not_eq_true]
    constructor
    · intro h upper hupper
      exact h _ (KeySet.mem_ofList.2 (List.mem_map_of_mem hupper))
    · intro h upper hupper
      obtain ⟨upper', hupper', rfl⟩ := List.mem_map.1 (KeySet.mem_ofList.1 hupper)
      exact h upper' hupper'
  rw [unusedReport, KeySet.mem_ofList, List.mem_filter, List.mem_map, Bool.not_eq_true', hconsumed]

/-! ## Replacing leaves -/

/-- The value with other leaves at some pointers. -/
def replaceLeaves (edits : String → Option Value) (v : Value) : Value :=
  v.mapLeaves fun path leaf => (edits (leafPointer path)).getD leaf

/-- Every edit puts a leaf in the place of one that is unused. -/
def EditsUnused (registry : List String) (v : Value) (edits : String → Option Value) : Prop :=
  ∀ pointer leaf, edits pointer = some leaf →
    leaf.isLeaf = true ∧ pointer ∈ (unusedReport registry v).unused

/-- One leaf in the places of some that are unused. -/
theorem EditsUnused.of_list {pointers : List String} {leaf : Value} (hleaf : leaf.isLeaf = true)
    (h : ∀ pointer ∈ pointers, pointer ∈ (unusedReport registry v).unused.toList) :
    EditsUnused registry v fun pointer => if pointer ∈ pointers then some leaf else none := by
  intro pointer leaf' hedit
  obtain ⟨hpointer, hsome⟩ := Option.ite_none_right_eq_some.1 hedit
  obtain rfl := Option.some.inj hsome
  exact ⟨hleaf, h pointer hpointer⟩

/-- A covered leaf is not edited. -/
theorem EditsUnused.eq_none (h : EditsUnused registry v edits) {path : List String}
    (hpath : Covered registry path) : edits (leafPointer path) = none := by
  obtain ⟨upper, hupper, hcovers⟩ := hpath
  refine Option.eq_none_iff_forall_ne_some.2 fun leaf hleaf => ?_
  obtain ⟨-, hunused⟩ := h _ leaf hleaf
  rw [(mem_unused_iff.1 hunused).2 upper hupper] at hcovers
  cases hcovers

theorem EditsUnused.isLeaf (h : EditsUnused registry v edits) (path : List String) (leaf : Value)
    (hleaf : leaf.isLeaf = true) : ((edits (leafPointer path)).getD leaf).isLeaf = true := by
  cases hedit : edits (leafPointer path) with
  | none => exact hleaf
  | some leaf' => exact (h _ leaf' hedit).1

/-- A covered path leads to the same value as before. -/
theorem descend?_replaceLeaves (h : EditsUnused registry v edits) {path : List String}
    (hne : path ≠ []) (hpath : Covered registry path) :
    (replaceLeaves edits v).descend? path = v.descend? path := by
  have hbelow : (fun q leaf => (edits (leafPointer (path ++ q))).getD leaf) =
      fun (_ : List String) leaf => leaf := by
    funext q leaf
    rw [h.eq_none (hpath.append hne q), Option.getD_none]
  rw [replaceLeaves, descend?_mapLeaves h.isLeaf, hbelow]
  cases v.descend? path with
  | none => rfl
  | some w => rw [Option.map_some, mapLeaves_self]

/-- The same leaves are unused as before. -/
theorem unusedReport_replaceLeaves (h : EditsUnused registry v edits) :
    unusedReport registry (replaceLeaves edits v) = unusedReport registry v := by
  unfold unusedReport
  rw [replaceLeaves, leaves_mapLeaves v h.isLeaf, List.map_map]
  rfl

/-! ## The settings -/

/-- The registry covers the places that settings are read from. -/
theorem covered_settings {name : String} (hname : name ∈ Settings.settingNames) :
    Covered consumedPointers ["notifications", name] := by
  have h : ∀ name ∈ Settings.settingNames, "/notifications/" ++ name ∈ consumedPointers ∧
      covers (normalize ("/notifications/" ++ name)) (leafPointer ["notifications", name]) := by
    decide +kernel
  exact ⟨_, h name hname⟩

theorem setting?_replaceLeaves (h : EditsUnused consumedPointers v edits) {name : String}
    (hname : name ∈ Settings.settingNames) :
    Settings.setting? (replaceLeaves edits v) name = Settings.setting? v name := by
  rw [Settings.setting?, Settings.setting?, pointer?, pointer?,
    Settings.toPath?_setting name hname]
  exact descend?_replaceLeaves h (List.cons_ne_nil _ _) (covered_settings hname)

/-- The report on unused keys is right about what is read. If leaves are replaced that it lists as
unused, the settings are the same in every environment, or fail to resolve with the same error, and
the same variables are looked up on the way. The report itself does not change. -/
theorem resolve_replaceLeaves (h : EditsUnused consumedPointers v edits)
    (env : String → Option String) :
    Settings.resolve (replaceLeaves edits v) env = Settings.resolve v env ∧
    Settings.lookups (replaceLeaves edits v) env = Settings.lookups v env ∧
    unusedReport consumedPointers (replaceLeaves edits v) = unusedReport consumedPointers v := by
  have hplaces : ∀ name ∈ Settings.settingNames,
      Settings.setting? (replaceLeaves edits v) name = Settings.setting? v name :=
    fun _ hname => setting?_replaceLeaves h hname
  refine ⟨?_, ?_, unusedReport_replaceLeaves h⟩
  · rw [Settings.resolve, Settings.resolveWith_congr hplaces, Settings.resolve]
  · rw [Settings.lookups, Settings.resolveWith_congr hplaces, Settings.lookups]

/-- Leaves of an empty key and of a key that looks like the pointer of the address. -/
theorem resolve_replaceLeaves_beside :
    Settings.resolve (.obj [("", .str "b"),
        ("notifications", .obj [("url", .str "a"), ("username", .str "u")]),
        ("notifications/url", .str "b")]) (fun _ => some "p") =
      Settings.resolve (.obj [("", .null),
        ("notifications", .obj [("url", .str "a"), ("username", .str "u")]),
        ("notifications/url", .null)]) (fun _ => some "p") := by
  have h : EditsUnused consumedPointers
      (.obj [("", .null), ("notifications", .obj [("url", .str "a"), ("username", .str "u")]),
        ("notifications/url", .null)])
      (fun pointer => if pointer ∈ ["/", "/notifications~1url"] then some (.str "b") else none) :=
    .of_list rfl (by decide +kernel)
  exact (resolve_replaceLeaves h fun _ => some "p").1

end Courier.Config
