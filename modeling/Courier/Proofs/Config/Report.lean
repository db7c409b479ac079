import Courier.Proofs.Config.Unused
import Courier.Proofs.Json.Pointer

/-!
# What the report on unused keys lists

Pointers are compared as texts, and that comes to comparing paths : a pointer of the registry, in
its usual form, covers a leaf exactly if its parts are the first keys of the leaf's path, as
pointers write keys (`covers_iff_above`). Hence the report lists the pointers of the leaves that no
pointer of the registry stands above, each leaf once and in ascending order (`unusedReport_perm`),
and it depends on the registry as a set (`unusedReport_exact`).
-/

namespace Courier.Config

open Json (Value)

variable {registry registry' : List String} {path : List String} {v : Value} {pointer : String}

/-! ## Pointers above a path -/

/-- The parts of the pointer are the first keys of the path, as they are written. The pointer of a
single slash stands above every path. -/
def Above (pointer : String) (path : List String) : Prop :=
  pointer = "/" ∨
    Json.Pointer.split (pointer.toList.drop 1) <+: path.map fun k => Json.Pointer.escape k.toList

instance (pointer : String) (path : List String) : Decidable (Above pointer path) :=
  inferInstanceAs (Decidable (_ ∨ _))

/-- No pointer of the registry, in its usual form, stands above the path. -/
def Uncovered (registry path : List String) : Prop :=
  ∀ upper ∈ registry, ¬Above (normalize upper) path

instance (registry path : List String) : Decidable (Uncovered registry path) :=
  inferInstanceAs (Decidable (∀ upper ∈ registry, _))

/-- The leaves of a value that no pointer of the registry stands above, with their paths. -/
def uncovered (registry : List String) (v : Value) : List (List String × Value) :=
  v.leaves.filter fun l => Uncovered registry l.1

theorem normalize_toList (pointer : String) : ∃ cs, (normalize pointer).toList = '/' :: cs :=
  ⟨_, String.toList_ofList⟩

theorem leafPointer_toList (k : String) (path : List String) : (leafPointer (k :: path)).toList =
    '/' :: (Json.Pointer.escape k.toList ++ Json.Pointer.ofPath path) := by
  rw [leafPointer, List.isEmpty_cons, if_neg Bool.false_ne_true, String.toList_ofList,
    Json.Pointer.ofPath_cons]

/-- Comparing texts comes to comparing keys. -/
theorem covers_iff_above {upper : String} {cs : List Char} (hupper : upper.toList = '/' :: cs) :
    covers upper (leafPointer path) = true ↔ Above upper path := by
  rw [covers_iff, Above, hupper, List.drop_one, List.tail_cons]
  cases path with
  | nil =>
    -- The path of the root has no keys, and its pointer is the one that covers everything.
    have hnil : ¬Json.Pointer.split cs <+: [] := fun h =>
      Json.Pointer.split_ne_nil cs (List.prefix_nil.1 h)
    have htext : ∀ rest, "/".toList = '/' :: cs ++ rest → upper = "/" := by
      intro rest h
      obtain ⟨rfl, -⟩ := List.append_eq_nil_iff.1 (List.tail_eq_of_cons_eq h).symm
      exact String.toList_inj.1 hupper
    constructor
    · rintro (h | ⟨rest, h, -⟩)
      · exact .inl h
      · exact .inl (htext rest h)
    · exact fun h => .inl (h.resolve_right hnil)
  | cons k path =>
    rw [leafPointer_toList, ← Json.Pointer.split_escaped, Json.Pointer.split_prefix_iff]
    simp only [List.cons_append, List.cons.injEq, true_and]

theorem covers_normalize_iff {upper : String} :
    covers (normalize upper) (leafPointer path) = true ↔ Above (normalize upper) path := by
  obtain ⟨cs, hcs⟩ := normalize_toList upper
  exact covers_iff_above hcs

theorem uncovered_iff : Uncovered registry path ↔
    ∀ upper ∈ registry, covers (normalize upper) (leafPointer path) = false := by
  simp only [Uncovered, ← covers_normalize_iff, Bool.not_eq_true]

/-! ## The report -/

/-- Leaves of one value with the same pointer are one leaf. -/
theorem leafPointer_injOn {l l' : List String × Value} (hl : l ∈ v.leaves) (hl' : l' ∈ v.leaves)
    (h : leafPointer l.1 = leafPointer l'.1) : l.1 = l'.1 := by
  cases hleaf : v.isLeaf with
  | true =>
    rw [Json.Value.leaves_of_isLeaf hleaf, List.mem_singleton] at hl hl'
    rw [hl, hl']
  | false =>
    have hpath : ∀ l ∈ v.leaves, (leafPointer l.1).toList = Json.Pointer.ofPath l.1 := by
      rintro ⟨_ | ⟨k, path⟩, w⟩ hmem
      · rw [Json.Value.isLeaf_of_nil_mem hmem] at hleaf
        cases hleaf
      · rw [leafPointer_toList, Json.Pointer.ofPath_cons]
    exact Json.Pointer.ofPath_injective (by rw [← hpath l hl, ← hpath l' hl', h])

/-- The leaves of an ordered value have distinct pointers. -/
theorem nodup_leafPointers (hv : v.Ordered) : (v.leaves.map fun l => leafPointer l.1).Nodup := by
  have hpaths := Json.Value.nodup_leaves hv
  refine List.Nodup.map_on ?_ (List.Nodup.of_map _ hpaths)
  intro l hl l' hl' h
  exact List.inj_on_of_nodup_map hpaths hl hl' (leafPointer_injOn hl hl' h)

theorem unused_eq : (unusedReport registry v).unused =
    KeySet.ofList ((uncovered registry v).map fun l => leafPointer l.1) := by
  refine KeySet.ext_mem fun pointer => ?_
  simp only [mem_unused_iff, KeySet.mem_ofList, List.mem_map, uncovered, List.mem_filter,
    decide_eq_true_eq, uncovered_iff]
  constructor
  · rintro ⟨⟨l, hl, rfl⟩, hnone⟩
    exact ⟨l, ⟨hl, hnone⟩, rfl⟩
  · rintro ⟨l, ⟨hl, hnone⟩, rfl⟩
    exact ⟨⟨l, hl, rfl⟩, hnone⟩

/-- The pointers of the uncovered leaves of an ordered value, each leaf once. -/
theorem unusedReport_perm (hv : v.Ordered) : (unusedReport registry v).unused.toList.Perm
    ((uncovered registry v).map fun l => leafPointer l.1) := by
  rw [unused_eq]
  exact KeySet.ofList_perm ((nodup_leafPointers hv).sublist (List.filter_sublist.map _))

/-- What a report says of a value and a registry. -/
structure Reports (registry : List String) (v : Value) (r : UnusedReport) : Prop where
  /-- The pointers of the registry in their usual form. -/
  consumed : ∀ pointer, pointer ∈ r.consumed ↔ ∃ upper ∈ registry, normalize upper = pointer
  ascending : r.unused.toList.Pairwise (· < ·)
  /-- A leaf is listed unless a pointer of the registry stands above it. -/
  listed : ∀ l ∈ v.leaves, leafPointer l.1 ∈ r.unused ↔ Uncovered registry l.1
  /-- Nothing else is listed, and each leaf for itself. -/
  single : r.unused.toList.Perm ((uncovered registry v).map fun l => leafPointer l.1)
  clean : r.isClean = true ↔ ∀ l ∈ v.leaves, ¬Uncovered registry l.1

theorem unusedReport_reports (hv : v.Ordered) : Reports registry v (unusedReport registry v) where
  consumed _ := mem_consumed_iff
  ascending := (unusedReport registry v).unused.ordered
  listed l hl := by
    rw [mem_unused_iff, uncovered_iff, and_iff_right ⟨l, hl, rfl⟩]
  single := unusedReport_perm hv
  clean := by
    rw [UnusedReport.isClean, (unusedReport_perm hv).isEmpty_eq, List.isEmpty_iff, List.map_eq_nil_iff,
      uncovered, List.filter_eq_nil_iff]
    simp only [decide_eq_true_eq]

/-- The strict policy. -/
theorem checkUnused_fail : checkUnused .fail registry v =
    if (unusedReport registry v).isClean = true then .ok (unusedReport registry v)
    else .error ⟨(unusedReport registry v).unused.toList⟩ := by
  dsimp only [checkUnused]
  cases (unusedReport registry v).isClean <;> rfl

/-- A check gives nothing but the report. -/
theorem checkUnused_eq_ok_iff {policy : UnusedPolicy} {r : UnusedReport} :
    checkUnused policy registry v = .ok r ↔
      unusedReport registry v = r ∧ (policy = .fail → r.isClean = true) := by
  cases policy with
  | warn =>
    have hwarn : checkUnused .warn registry v = .ok (unusedReport registry v) := rfl
    rw [hwarn, Except.ok.injEq]
    exact (and_iff_left fun h => nomatch h).symm
  | fail =>
    rw [checkUnused_fail]
    constructor
    · intro h
      split at h
      · next hclean =>
        obtain rfl := Except.ok.inj h
        exact ⟨rfl, fun _ => hclean⟩
      · cases h
    · rintro ⟨rfl, hclean⟩
      rw [if_pos (hclean rfl)]

/-- The consumed pointers settle the report on a value. -/
theorem unusedReport_eq_of_consumed
    (h : (unusedReport registry' v).consumed = (unusedReport registry v).consumed) :
    unusedReport registry' v = unusedReport registry v := by
  have hconsumed : KeySet.ofList (registry'.map normalize) =
      KeySet.ofList (registry.map normalize) := h
  rw [unusedReport, unusedReport, hconsumed]

/-- The report against a registry with the same pointers, in whatever order and however often. -/
theorem unusedReport_congr (h : ∀ pointer, pointer ∈ registry' ↔ pointer ∈ registry) :
    unusedReport registry' v = unusedReport registry v := by
  refine unusedReport_eq_of_consumed (KeySet.ext_mem fun pointer => ?_)
  simp only [mem_consumed_iff, h]

/-- A leaf that is unused against a registry is unused against a part of it. -/
theorem unused_of_subset (h : registry ⊆ registry')
    (hp : pointer ∈ (unusedReport registry' v).unused) : pointer ∈ (unusedReport registry v).unused := by
  obtain ⟨hleaf, hnone⟩ := mem_unused_iff.1 hp
  exact mem_unused_iff.2 ⟨hleaf, fun upper hupper => hnone upper (h hupper)⟩

/-- The report on unused keys is exact. It lists the leaves that no pointer of the registry stands
above, each once; order and repetitions in the registry make no difference to it, and further
pointers add none to the list. The strict policy refuses a value exactly if the report on it is not
clean, and says how many leaves there are in it; else it gives the same report. -/
theorem unusedReport_exact (hv : v.Ordered) (registry : List String) :
    Reports registry v (unusedReport registry v) ∧
    (∀ registry', (∀ pointer, pointer ∈ registry' ↔ pointer ∈ registry) →
      unusedReport registry' v = unusedReport registry v) ∧
    (∀ registry', registry ⊆ registry' → ∀ pointer ∈ (unusedReport registry' v).unused,
      pointer ∈ (unusedReport registry v).unused) ∧
    checkUnused .warn registry v = .ok (unusedReport registry v) ∧
    ((∃ f, checkUnused .fail registry v = .error f) ↔
      (unusedReport registry v).isClean = false) ∧
    (∀ r, checkUnused .fail registry v = .ok r → r = unusedReport registry v) ∧
    ∀ f, checkUnused .fail registry v = .error f →
      f.message = "CONFIG_UNUSED_KEYS: " ++ toString (uncovered registry v).length
        ++ " unused config leaf key(s) detected. Remove them or add them to the consumed registry. "
        ++ "First few: " ++ Text.quoteList ((unusedReport registry v).unused.toList.take 12) := by
  refine ⟨unusedReport_reports hv, fun _ => unusedReport_congr, fun _ h _ => unused_of_subset h,
    rfl, ?_, ?_, ?_⟩
  · rw [checkUnused_fail]
    cases (unusedReport registry v).isClean <;> simp
  · intro r hr
    rw [checkUnused_fail] at hr
    split at hr
    · exact (Except.ok.inj hr).symm
    · cases hr
  · intro f hf
    rw [checkUnused_fail] at hf
    split at hf
    · cases hf
    · obtain rfl := Except.error.inj hf
      rw [← @List.length_map _ _ (uncovered registry v) fun l => leafPointer l.1,
        ← (unusedReport_perm hv).length_eq]
      rfl

/-- An empty key, a key that goes on after another one, and one with the text of a pointer. -/
theorem unusedReport_exact_beside :
    let v : Value := .obj [("", .null), ("a", .obj [("b", .arr [.null]), ("bc", .null)]),
      ("a/b", .null), ("~", .null)]
    v.Ordered ∧ (unusedReport ["a/b/", " /~0 "] v).unused.toList.Perm ["/", "/a/bc", "/a~1b"] ∧
      ∃ f, checkUnused .fail ["a/b/", " /~0 "] v = .error f := by
  intro v
  have hinner : (Value.obj [("b", .arr [.null]), ("bc", .null)]).Ordered :=
    ⟨by decide, ⟨trivial, trivial⟩, trivial, trivial⟩
  have hv : v.Ordered :=
    ⟨by decide, trivial, hinner, trivial, trivial, trivial⟩
  have huncovered : (uncovered ["a/b/", " /~0 "] v).map (fun l => leafPointer l.1) =
      ["/", "/a/bc", "/a~1b"] := by
    decide +kernel
  obtain ⟨hreports, -, -, -, hfails, -⟩ := unusedReport_exact hv ["a/b/", " /~0 "]
  refine ⟨hv, huncovered ▸ hreports.single, hfails.2 ?_⟩
  decide +kernel

end Courier.Config
