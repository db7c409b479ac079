import Courier.Proofs.Json.Leaves
import Courier.Proofs.Text.Parts

/-!
# Pointers and paths

A pointer writes a path and nothing but it : cut at its slashes it gives back the keys as they are
written (`split_escaped`), and these read back as they were (`unescape_escape`), so that a path is
read off its pointer (`toPath?_ofPath`) and paths with one pointer are equal. What one text adds to
another at a slash is what it adds to its parts (`split_prefix_iff`).

The walk of the leaves of an ordered value comes by no path twice (`nodup_leaves`).
-/

namespace Courier.Json

namespace Pointer

variable {cs u : List Char}

/-! ## Parts of a text -/

theorem split_eq_splitOn (cs : List Char) : split cs = cs.splitOn '/' :=
  Text.eq_splitOn rfl (fun _ _ => rfl) cs

theorem split_ne_nil (cs : List Char) : split cs ≠ [] := by
  rw [split_eq_splitOn]
  exact List.splitOn_ne_nil '/' cs

theorem split_of_not_mem (h : '/' ∉ cs) : split cs = [cs] := by
  rw [split_eq_splitOn, List.splitOn_eq_singleton h]

/-- The parts of two texts with a slash between them. -/
theorem split_append (u cs : List Char) : split (u ++ '/' :: cs) = split u ++ split cs := by
  simp only [split_eq_splitOn, List.splitOn_append_cons_self]

/-- The text is its parts, each behind a slash. -/
theorem flatMap_split (cs : List Char) : (split cs).flatMap ('/' :: ·) = '/' :: cs := by
  rw [Text.flatMap_cons (split_ne_nil cs), split_eq_splitOn, List.intercalate_splitOn]

/-- The parts of one text are the first ones of another exactly if this goes on after it, if it
does, with a slash. -/
theorem split_prefix_iff : split u <+: split cs ↔
    ∃ rest, cs = u ++ rest ∧ rest.head?.all (· == '/') := by
  constructor
  · rintro ⟨more, hmore⟩
    have htext := congrArg (List.flatMap ('/' :: ·)) hmore
    rw [List.flatMap_append, flatMap_split, flatMap_split, List.cons_append] at htext
    refine ⟨more.flatMap ('/' :: ·), (List.tail_eq_of_cons_eq htext).symm, ?_⟩
    cases more <;> rfl
  · rintro ⟨_ | ⟨c, rest⟩, rfl, hhead⟩
    · exact ⟨[], by rw [List.append_nil, List.append_nil]⟩
    · obtain rfl : c = '/' := by simpa using hhead
      rw [split_append]
      exact List.prefix_append _ _

/-! ## Keys -/

theorem slash_not_mem_escape (key : List Char) : '/' ∉ escape key := by
  intro h
  obtain ⟨c, -, hc⟩ := List.mem_flatMap.1 h
  unfold escapeChar at hc
  split at hc
  · simp at hc
  · split at hc
    · simp at hc
    · next hne => exact hne (List.mem_singleton.1 hc).symm

theorem unescape_cons {c : Char} (hc : c ≠ '~') (key : List Char) :
    unescape (c :: key) = c :: unescape key := by
  rw [unescape]
  · rintro key rfl
    exact absurd rfl hc
  · rintro key rfl
    exact absurd rfl hc

/-- What is written for a key is read as the key. -/
theorem unescape_escape (key : List Char) : unescape (escape key) = key := by
  induction key with
  | nil => rfl
  | cons c key ih =>
    have hcons : escape (c :: key) = escapeChar c ++ escape key := List.flatMap_cons
    rw [hcons]
    unfold escapeChar
    split
    · next hc => rw [List.cons_append, List.cons_append, List.nil_append, unescape, ih, hc]
    · next htilde =>
      split
      · next hc => rw [List.cons_append, List.cons_append, List.nil_append, unescape, ih, hc]
      · rw [List.singleton_append, unescape_cons htilde, ih]

/-! ## Paths -/

theorem ofPath_cons (k : String) (path : List String) :
    ofPath (k :: path) = '/' :: (escape k.toList ++ ofPath path) :=
  List.flatMap_cons

/-- The parts of a pointer are the keys of its path as they are written. -/
theorem split_escaped (k : String) (path : List String) :
    split (escape k.toList ++ ofPath path) = (k :: path).map fun k => escape k.toList := by
  induction path generalizing k with
  | nil =>
    have hnil : ofPath [] = [] := rfl
    rw [hnil, List.append_nil, split_of_not_mem (slash_not_mem_escape _)]
    rfl
  | cons k' path ih =>
    rw [ofPath_cons, split_append, split_of_not_mem (slash_not_mem_escape _), ih k']
    rfl

/-- A path is read off its pointer. -/
theorem toPath?_ofPath (path : List String) : toPath? (ofPath path) = some path := by
  cases path with
  | nil => rfl
  | cons k path =>
    rw [ofPath_cons, toPath?, split_escaped, List.map_map]
    have hkey : (fun part => String.ofList (unescape part)) ∘ (fun k : String => escape k.toList) =
        id := by
      funext k
      rw [Function.comp_apply, unescape_escape, String.ofList_toList, id]
    rw [hkey, List.map_id]

theorem ofPath_injective {p q : List String} (h : ofPath p = ofPath q) : p = q :=
  Option.some.inj ((toPath?_ofPath p).symm.trans ((congrArg toPath? h).trans (toPath?_ofPath q)))

end Pointer

/-! ## The paths of the leaves -/

namespace Value

/-- Items with one key are one item. -/
theorem itemKey_injective {i j : Nat}
    (h : String.ofList (Nat.toDigits 10 i) = String.ofList (Nat.toDigits 10 j)) : i = j := by
  have hdigits := String.ofList_injective h
  rw [← Nat.ofDigitChars_ten_toDigits (n := i), hdigits, Nat.ofDigitChars_ten_toDigits]

/-- Only a value that is a leaf has a leaf right at its root. -/
theorem isLeaf_of_nil_mem {v w : Value} (h : ([], w) ∈ v.leaves) : v.isLeaf = true := by
  obtain ⟨hroot, hleaf⟩ := mem_leaves_iff.1 h
  cases hroot
  exact hleaf

/-- Paths that are distinct below a key, and other paths that do not start with it. -/
theorem nodup_below {k : String} {ls ls' : List (List String × Value)}
    (h : (ls.map Prod.fst).Nodup) (h' : (ls'.map Prod.fst).Nodup)
    (hne : ∀ l ∈ ls', ∀ path, l.1 ≠ k :: path) :
    ((ls.map (fun l => (k :: l.1, l.2)) ++ ls').map Prod.fst).Nodup := by
  have hbelow : (ls.map fun l => (k :: l.1, l.2)).map Prod.fst = (ls.map Prod.fst).map (k :: ·) := by
    rw [List.map_map, List.map_map]
    rfl
  rw [List.map_append, hbelow]
  refine List.Nodup.append (h.map (List.cons_injective)) h' ?_
  intro p hp hp'
  obtain ⟨path, -, rfl⟩ := List.mem_map.1 hp
  obtain ⟨l, hl, hfst⟩ := List.mem_map.1 hp'
  exact hne l hl path hfst

mutual

/-- The walk comes by no path twice. -/
theorem nodup_leaves : ∀ {v : Value}, v.Ordered → (v.leaves.map Prod.fst).Nodup
  | .arr items, h => nodup_leavesOfItems 0 (orderedItems_iff.1 h)
  | .obj members, h => by
    obtain ⟨hkeys, hvalues⟩ := ordered_obj_iff.1 h
    exact nodup_leavesOfMembers hkeys hvalues
  | .null, _ | .bool _, _ | .num _, _ | .str _, _ => List.nodup_singleton _

theorem nodup_leavesOfItems : ∀ (i : Nat) {items : List Value}, (∀ v ∈ items, v.Ordered) →
    ((leavesOfItems i items).map Prod.fst).Nodup
  | _, [], _ => List.nodup_nil
  | i, v :: items, h => by
    refine nodup_below (nodup_leaves (h v List.mem_cons_self))
      (nodup_leavesOfItems (i + 1) fun w hw => h w (List.mem_cons_of_mem v hw)) ?_
    intro l hl path hpath
    obtain ⟨j, -, q, -, -, hl'⟩ := mem_leavesOfItems_iff.1 hl
    have hij := itemKey_injective (List.cons.inj (hpath.symm.trans hl')).1
    omega

theorem nodup_leavesOfMembers : ∀ {members : List (String × Value)}, Entries.Ordered members →
    (∀ m ∈ members, m.2.Ordered) → ((leavesOfMembers members).map Prod.fst).Nodup
  | [], _, _ => List.nodup_nil
  | (k, v) :: members, hkeys, hvalues => by
    obtain ⟨hlt, hrest⟩ := List.pairwise_cons.1 hkeys
    refine nodup_below (nodup_leaves (hvalues (k, v) List.mem_cons_self))
      (nodup_leavesOfMembers hrest fun m hm => hvalues m (List.mem_cons_of_mem _ hm)) ?_
    intro l hl path hpath
    obtain ⟨k', u, q, hu, -, hl'⟩ := mem_leavesOfMembers_iff.1 hl
    obtain rfl : k = k' := (List.cons.inj (hpath.symm.trans hl')).1
    exact String.lt_irrefl _ (hlt (k, u) hu)

end

end Value

end Courier.Json
