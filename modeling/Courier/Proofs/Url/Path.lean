import Courier.Proofs.Url.Address
import Courier.Proofs.Url.Escape
import Courier.Url.Basic

/-!
# Paths of the web

The path of a web address has at least one segment, and none that would be read as anything else
(`isPath_parsePath`) : such segments are read off their text as they are (`parsePath_render`).
-/

namespace Courier.Url

/-- A segment of a path of the web, as it stands in an address. -/
structure IsSegment (s : List Char) : Prop where
  clean : Reserve.path.Clean s
  slash : '/' ∉ s
  backslash : '\\' ∉ s
  doubleDot : isDoubleDot s = false
  singleDot : isSingleDot s = false

/-- The segments of a path of the web. -/
structure IsPath (parts : List (List Char)) : Prop where
  segment : ∀ s ∈ parts, IsSegment s
  ne_nil : parts ≠ []

variable {done parts : List (List Char)} {s text : List Char} {last : Bool}

/-! ## What a path reads as -/

theorem isSegment_nil : IsSegment [] where
  clean := fun c hc => absurd hc List.not_mem_nil
  slash := List.not_mem_nil
  backslash := List.not_mem_nil
  doubleDot := by decide
  singleDot := by decide

theorem mem_of_mem_shorten (h : s ∈ shorten .web done) : s ∈ done := by
  unfold shorten at h
  split at h
  · cases h
  · split at h
    · exact h
    · cases h
  · exact List.mem_cons_of_mem _ h

/-- What a part adds to a path, if it does not stand for anything else. -/
theorem addSegment_of_isSegment (h : IsSegment s) : addSegment .web done s last = s :: done := by
  rw [addSegment, if_neg (by simp [h.doubleDot]), if_neg (by simp [h.singleDot]), if_neg (by simp)]

theorem isSegment_addSegment (hdone : ∀ d ∈ done, IsSegment d) (hclean : Reserve.path.Clean s)
    (hslash : '/' ∉ s) (hbackslash : '\\' ∉ s) :
    ∀ d ∈ addSegment .web done s last, IsSegment d := by
  have hshorten : ∀ d ∈ shorten .web done, IsSegment d := fun d hd =>
    hdone d (mem_of_mem_shorten hd)
  have hnil : ∀ {ds}, (∀ d ∈ ds, IsSegment d) → ∀ d ∈ [] :: ds, IsSegment d := fun h d hd =>
    (List.mem_cons.1 hd).elim (fun heq => heq ▸ isSegment_nil) (h d)
  by_cases hdouble : isDoubleDot s = true
  · rw [addSegment, if_pos hdouble]
    split
    · exact hnil hshorten
    · exact hshorten
  · by_cases hsingle : isSingleDot s = true
    · rw [addSegment, if_neg hdouble, if_pos hsingle]
      split
      · exact hnil hdone
      · exact hdone
    · have hs : IsSegment s :=
        ⟨hclean, hslash, hbackslash, by simpa using hdouble, by simpa using hsingle⟩
      rw [addSegment_of_isSegment hs]
      exact fun d hd => (List.mem_cons.1 hd).elim (fun heq => heq ▸ hs) (hdone d)

theorem addSegment_last_ne_nil (done : List (List Char)) (s : List Char) :
    addSegment .web done s true ≠ [] := by
  rw [addSegment]
  split_ifs <;> first | exact List.cons_ne_nil _ _ | contradiction

theorem isPath_addSegments : ∀ {parts done : List (List Char)}, (∀ d ∈ done, IsSegment d) →
    (∀ s ∈ parts, Reserve.path.Clean s ∧ '/' ∉ s ∧ '\\' ∉ s) → parts ≠ [] →
      IsPath (addSegments .web done parts)
  | [], _, _, _, hne => absurd rfl hne
  | [s], done, hdone, hparts, _ => by
    obtain ⟨hclean, hslash, hbackslash⟩ := hparts s List.mem_cons_self
    exact ⟨isSegment_addSegment hdone hclean hslash hbackslash, addSegment_last_ne_nil done s⟩
  | s :: s' :: parts, done, hdone, hparts, _ => by
    obtain ⟨hclean, hslash, hbackslash⟩ := hparts s List.mem_cons_self
    exact @isPath_addSegments (s' :: parts) _
      (isSegment_addSegment hdone hclean hslash hbackslash)
      (fun d hd => hparts d (List.mem_cons_of_mem s hd)) (List.cons_ne_nil _ _)

theorem isPath_parseSegments (text : List Char) : IsPath (parseSegments .web text) := by
  have hpath : IsPath (addSegments .web [] ((splitParts '/'
      (text.map fun c => if c = '\\' then '/' else c)).map Reserve.path.write)) := by
    refine isPath_addSegments (fun d hd => absurd hd List.not_mem_nil) (fun s hs => ?_) ?_
    · obtain ⟨part, hpart, rfl⟩ := List.mem_map.1 hs
      rw [splitParts_eq_splitOn] at hpart
      -- an escape brings in no slash, and the parts have none
      have hwrite : ∀ c ∈ ['/', '\\'], c ∉ part → c ∉ Reserve.path.write part := by
        intro c hc hpart hmem
        rcases Reserve.mem_write hmem with ⟨hmem, -⟩ | rfl | ⟨n, hn, rfl⟩
        · exact hpart hmem
        · exact absurd hc (by decide)
        · exact (by decide : ∀ n < 16, (Nat.digitChar n).toUpper ∉ ['/', '\\']) n hn hc
      refine ⟨Reserve.clean_write _ _, hwrite '/' (by decide) fun hmem => ?_,
        hwrite '\\' (by decide) fun hmem => ?_⟩
      · exact (Text.of_mem_splitOn hpart hmem).2 rfl
      · obtain ⟨c, -, hc⟩ := List.mem_map.1 (Text.of_mem_splitOn hpart hmem).1
        split at hc
        · exact absurd hc (by decide)
        · next hne => exact hne hc
    · simp [splitParts_eq_splitOn, List.splitOn_ne_nil]
  exact ⟨fun s hs => hpath.segment s (List.mem_reverse.1 hs),
    fun hnil => hpath.ne_nil (List.reverse_eq_nil_iff.1 hnil)⟩

/-- The path of a web address, from any text. -/
theorem isPath_parsePath (text : List Char) :
    ∃ parts, parsePath .web text = .segments parts ∧ IsPath parts := by
  unfold parsePath
  split
  · exact ⟨[[]], rfl, fun s hs => List.mem_singleton.1 hs ▸ isSegment_nil, by simp⟩
  · exact ⟨_, rfl, isPath_parseSegments _⟩
  · exact ⟨_, rfl, isPath_parseSegments _⟩
  · exact ⟨_, rfl, isPath_parseSegments _⟩

/-! ## Reading the text of a path -/

theorem addSegments_of_isSegment : ∀ {parts done : List (List Char)}, (∀ s ∈ parts, IsSegment s) →
    addSegments .web done parts = parts.reverse ++ done
  | [], _, _ => rfl
  | [s], _, h => by
    rw [addSegments, addSegment_of_isSegment (h s List.mem_cons_self)]
    rfl
  | s :: s' :: parts, done, h => by
    rw [addSegments, addSegment_of_isSegment (h s List.mem_cons_self),
      addSegments_of_isSegment fun d hd => h d (List.mem_cons_of_mem s hd)]
    · simp
    · exact List.cons_ne_nil _ _

theorem render_segments (h : parts ≠ []) :
    (Path.segments parts).render = '/' :: ['/'].intercalate parts :=
  Text.flatMap_cons h

/-- What stands in the text of a path neither ends it nor is blank. -/
theorem of_mem_render_segments {c : Char} (h : ∀ s ∈ parts, IsSegment s)
    (hc : c ∈ (Path.segments parts).render) : 0x20 < c.toNat ∧ c ≠ '?' ∧ c ≠ '#' := by
  obtain ⟨s, hs, hc⟩ := List.mem_flatMap.1 hc
  rcases List.mem_cons.1 hc with rfl | hc
  · decide
  · have hclean := (h s hs).clean
    refine ⟨hclean.blank_lt (by decide) c hc, ?_, ?_⟩ <;> rintro rfl <;>
      exact hclean.not_mem (by decide) hc

/-- The segments of a path are read off its text as they are. -/
theorem parsePath_render (h : IsPath parts) :
    parsePath .web (Path.segments parts).render = .segments parts := by
  have hslash : ∀ c ∈ ['/'].intercalate parts, c ≠ '\\' :=
    Text.forall_mem_intercalate (by decide) fun s hs c hc heq =>
      (h.segment s hs).backslash (heq ▸ hc)
  have hsame : (['/'].intercalate parts).map (fun c => if c = '\\' then '/' else c) =
      ['/'].intercalate parts := by
    rw [List.map_congr_left fun c hc => if_neg (hslash c hc), List.map_id']
  have hwrite : parts.map Reserve.path.write = parts := by
    rw [List.map_congr_left fun s hs => Reserve.write_of_clean (h.segment s hs).clean, List.map_id']
  have hsegments : parseSegments .web (['/'].intercalate parts) = parts := by
    have hspecial : SchemeKind.web.isSpecial = true := by decide
    have hsplit := List.splitOn_intercalate '/' (fun s hs => (h.segment s hs).slash) h.ne_nil
    simp only [parseSegments, hspecial, if_true, hsame, splitParts_eq_splitOn, hsplit, hwrite,
      addSegments_of_isSegment h.segment]
    simp
  rw [render_segments h.ne_nil]
  exact congrArg Path.segments hsegments

end Courier.Url
