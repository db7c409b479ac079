import Courier.Proofs.Config.Report
import Courier.Proofs.Text.Blank
import Mathlib.Data.Finset.Max

/-!
# The usual form of a pointer

The usual form of a pointer is found by cutting off blanks and then slashes, each once. Where a
blank stands before the slashes at the end (`Hides`), it is at the end of what is left, and would
be cut off in a second pass : the form is its own usual form exactly if there is no such blank
(`normalize_normalize_iff`). Reporting against the consumed pointers of a report gives the report
again exactly if no pointer of the registry has one (`checkUnused_again`); else it may list leaves
that the first report did not (`checkUnused_again_hidden`).
-/

namespace Courier.Config

open Json (Value)
open Text

variable {registry : List String} {pointer : String} {v : Value} {cs : List Char}

/-! ## The usual form -/

/-- What stands behind a slash in front, if there is one. -/
def afterSlash (cs : List Char) : List Char :=
  match cs with
  | '/' :: rest => rest
  | _ => cs

theorem normalize_eq_afterSlash (pointer : String) : (normalize pointer).toList =
    '/' :: afterSlash (dropEndWhile (· = '/') (trimList pointer.toList)) := by
  rw [normalize, String.toList_ofList]
  rfl

/-- A slash in front does not change what stands at the end. -/
theorem getLast?_afterSlash (h : ∀ c, cs.getLast? = some c → c ≠ '/') :
    (afterSlash cs).getLast? = cs.getLast? := by
  unfold afterSlash
  split
  · next rest =>
    cases rest with
    | nil => exact absurd rfl (h '/' rfl)
    | cons c rest => rfl
  · rfl

/-- Of a pointer with a slash in front blanks are cut off at the end, and then slashes. -/
theorem normalize_of_slash (h : pointer.toList = '/' :: cs) : (normalize pointer).toList =
    '/' :: dropEndWhile (· = '/') (dropEndWhile isBlank cs) := by
  have htrim : trimList ('/' :: cs) = '/' :: dropEndWhile isBlank cs := by
    rw [trimList, List.dropWhile_cons_of_neg (by decide)]
    exact dropEndWhile_append_of_neg (by decide) [] cs
  rw [normalize_eq_afterSlash, h, htrim, dropEndWhile_cons]
  split
  · next hnil => rw [hnil]; rfl
  · rfl

/-- Nothing is put to a pointer with a slash in front. -/
theorem prefix_normalize (h : pointer.toList = '/' :: cs) :
    (normalize pointer).toList <+: pointer.toList := by
  rw [normalize_of_slash h, h, List.cons_prefix_cons]
  exact ⟨rfl, (prefix_dropEndWhile _ _).trans (prefix_dropEndWhile _ _)⟩

theorem normalize_length_lt (h : pointer.toList = '/' :: cs) (hne : normalize pointer ≠ pointer) :
    (normalize pointer).toList.length < pointer.toList.length :=
  (prefix_normalize h).length_le.lt_of_ne fun heq =>
    hne (String.toList_inj.1 ((prefix_normalize h).eq_of_length heq))

/-- A pointer with a slash in front is in its usual form if it ends in neither a blank nor a
slash. -/
theorem normalize_eq_self_iff (h : pointer.toList = '/' :: cs) : normalize pointer = pointer ↔
    ∀ c, cs.getLast? = some c → isBlank c = false ∧ c ≠ '/' := by
  rw [← String.toList_inj, normalize_of_slash h, h, List.cons.injEq, and_iff_right rfl]
  constructor
  · intro hsame c hc
    have hblank : dropEndWhile isBlank cs = cs := by
      refine (prefix_dropEndWhile isBlank cs).eq_of_length_le ?_
      calc cs.length
          = (dropEndWhile (· = '/') (dropEndWhile isBlank cs)).length := by rw [hsame]
        _ ≤ (dropEndWhile isBlank cs).length := (prefix_dropEndWhile _ _).length_le
    rw [hblank, dropEndWhile_eq_self_iff] at hsame
    exact ⟨dropEndWhile_eq_self_iff.1 hblank c hc, by simpa using hsame c hc⟩
  · intro hend
    rw [dropEndWhile_eq_self_iff.2 fun c hc => (hend c hc).1, dropEndWhile_eq_self_iff]
    exact fun c hc => by simpa using (hend c hc).2

/-- Without the blanks around it the pointer ends in slashes, and a blank stands before them. -/
def Hides (pointer : String) : Prop :=
  ∃ front c slashes, Trims pointer.toList (front ++ c :: slashes) ∧ isBlank c = true ∧
    ∀ s ∈ slashes, s = '/'

theorem hides_iff : Hides pointer ↔
    ∃ c, (dropEndWhile (· = '/') (trimList pointer.toList)).getLast? = some c ∧
      isBlank c = true := by
  constructor
  · rintro ⟨front, c, slashes, htrims, hc, hslashes⟩
    have hne : c ≠ '/' := by
      rintro rfl
      cases hc
    have hnone : dropEndWhile (· = '/') slashes = [] :=
      List.rdropWhile_eq_nil_iff.2 (by simpa using hslashes)
    refine ⟨c, ?_, hc⟩
    rw [trimList_eq_iff.2 htrims, dropEndWhile_append_of_neg (by simpa using hne), hnone,
      List.getLast?_concat]
  · rintro ⟨c, hlast, hc⟩
    obtain ⟨front, hfront⟩ := List.getLast?_eq_some_iff.1 hlast
    have hcore := dropEndWhile_append_rtakeWhile (· = '/') (trimList pointer.toList)
    rw [hfront, List.append_assoc, List.singleton_append] at hcore
    refine ⟨front, c, _, trimList_eq_iff.1 hcore.symm, hc, fun s hs => ?_⟩
    simpa using List.mem_rtakeWhile_imp hs

/-- The usual form of a pointer is its own usual form, unless the pointer hides a blank. -/
theorem normalize_normalize_iff : normalize (normalize pointer) = normalize pointer ↔
    ¬Hides pointer := by
  have hslash : ∀ c, (dropEndWhile (· = '/') (trimList pointer.toList)).getLast? = some c →
      c ≠ '/' := fun c hc => by simpa using getLast?_dropEndWhile_eq_false hc
  rw [normalize_eq_self_iff (normalize_eq_afterSlash pointer), getLast?_afterSlash hslash, hides_iff]
  constructor
  · rintro hend ⟨c, hc, hblank⟩
    exact Bool.false_ne_true ((hend c hc).1.symm.trans hblank)
  · exact fun hnone c hc => ⟨Bool.eq_false_iff.2 fun hblank => hnone ⟨c, hc, hblank⟩, hslash c hc⟩

/-! ## Reporting again -/

/-- A function that keeps a set as a whole, and that shortens the members that it changes, changes
none. -/
theorem eq_self_of_ofList_map {f : String → String} {s : KeySet}
    (hshort : ∀ k ∈ s, f k ≠ k → (f k).toList.length < k.toList.length)
    (hkeep : KeySet.ofList (s.toList.map f) = s) {k : String} (hk : k ∈ s) : f k = k := by
  by_contra hne
  -- A longest member that is changed is what another one is changed to, which is longer still.
  obtain ⟨long, hlong, hmax⟩ := Finset.exists_max_image
    (s.toList.toFinset.filter fun k => f k ≠ k) (·.toList.length)
    ⟨k, Finset.mem_filter.2 ⟨List.mem_toFinset.2 hk, hne⟩⟩
  obtain ⟨hmem, hchanged⟩ := Finset.mem_filter.1 hlong
  have himage : long ∈ KeySet.ofList (s.toList.map f) := hkeep.symm ▸ List.mem_toFinset.1 hmem
  obtain ⟨source, hsource, rfl⟩ := List.mem_map.1 (KeySet.mem_ofList.1 himage)
  have hchanges : f source ≠ source := fun heq => hchanged (congrArg f heq)
  have hle := hmax source (Finset.mem_filter.2 ⟨List.mem_toFinset.2 hsource, hchanges⟩)
  exact Nat.not_lt.2 hle (hshort source hsource hchanges)

theorem unusedReport_again_iff : unusedReport (unusedReport registry v).consumed.toList v =
    unusedReport registry v ↔ ∀ upper ∈ registry, ¬Hides upper := by
  constructor
  · intro h upper hupper
    have hkeep : KeySet.ofList ((unusedReport registry v).consumed.toList.map normalize) =
        (unusedReport registry v).consumed := congrArg UnusedReport.consumed h
    refine normalize_normalize_iff.1 (eq_self_of_ofList_map ?_ hkeep
      (mem_consumed_iff.2 ⟨upper, hupper, rfl⟩))
    intro k hk
    obtain ⟨upper', -, rfl⟩ := mem_consumed_iff.1 hk
    exact normalize_length_lt (normalize_eq_afterSlash upper')
  · intro h
    have hfixed : (unusedReport registry v).consumed.toList.map normalize =
        (unusedReport registry v).consumed.toList := by
      refine (List.map_congr_left fun k hk => ?_).trans (List.map_id _)
      obtain ⟨upper, hupper, rfl⟩ := mem_consumed_iff.1 hk
      exact normalize_normalize_iff.2 (h upper hupper)
    refine unusedReport_eq_of_consumed ?_
    calc (unusedReport (unusedReport registry v).consumed.toList v).consumed
        = KeySet.ofList ((unusedReport registry v).consumed.toList.map normalize) := rfl
      _ = (unusedReport registry v).consumed := by rw [hfixed, KeySet.ofList_toList]

/-- Checking a value again, against the consumed pointers of the report on it, which are in order and
there once each. The report is the same exactly if no pointer of the registry hides a blank, and
these are the pointers whose usual form is its own usual form. -/
theorem checkUnused_again (registry : List String) (v : Value) :
    (∀ pointer, normalize (normalize pointer) = normalize pointer ↔ ¬Hides pointer) ∧
    ∀ policy r, checkUnused policy registry v = .ok r →
      KeySet.ofList r.consumed.toList = r.consumed ∧
      (checkUnused policy r.consumed.toList v = .ok r ↔ ∀ upper ∈ registry, ¬Hides upper) := by
  refine ⟨fun _ => normalize_normalize_iff, fun policy r h => ⟨KeySet.ofList_toList _, ?_⟩⟩
  obtain ⟨rfl, hclean⟩ := checkUnused_eq_ok_iff.1 h
  rw [checkUnused_eq_ok_iff, and_iff_left hclean, unusedReport_again_iff]

/-- Blanks around a pointer and within it, and slashes at the end of both pointers. -/
theorem checkUnused_again_slashed :
    let registry := [" a b//", "c/ "]
    let v : Value := .obj [("a b", .null), ("c", .obj [("d", .null)])]
    ∃ r, checkUnused .fail registry v = .ok r ∧ checkUnused .fail r.consumed.toList v = .ok r ∧
      r.consumed.toList = ["/a b", "/c"] := by
  intro registry v
  have hclean : (unusedReport registry v).isClean = true := by decide +kernel
  have hchecked : checkUnused .fail registry v = .ok (unusedReport registry v) :=
    checkUnused_eq_ok_iff.2 ⟨rfl, fun _ => hclean⟩
  have hfixed : ∀ upper ∈ registry, normalize (normalize upper) = normalize upper := by
    decide +kernel
  obtain ⟨hforms, hagain⟩ := checkUnused_again registry v
  exact ⟨_, hchecked, (hagain .fail _ hchecked).2.2 fun upper hupper =>
    (hforms upper).1 (hfixed upper hupper), by decide +kernel⟩

/-- A blank before the slash at the end of a pointer, and a key that ends in the blank. -/
theorem checkUnused_again_hidden : ∃ registry v, ∀ policy, ∃ r,
    checkUnused policy registry v = .ok r ∧ checkUnused policy r.consumed.toList v ≠ .ok r := by
  have hclean : (unusedReport ["a /"] (.obj [("a ", .null)])).isClean = true := by decide +kernel
  have hhides : Hides "a /" :=
    ⟨['a'], ' ', ['/'], trimList_eq_iff.1 rfl, rfl, fun _ hs => List.mem_singleton.1 hs⟩
  refine ⟨["a /"], .obj [("a ", .null)], fun policy =>
    ⟨_, checkUnused_eq_ok_iff.2 ⟨rfl, fun _ => hclean⟩, fun hagain => ?_⟩⟩
  have hsame := (checkUnused_eq_ok_iff.1 hagain).1
  exact unusedReport_again_iff.1 hsame "a /" List.mem_cons_self hhides

end Courier.Config
