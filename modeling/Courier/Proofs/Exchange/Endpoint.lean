import Courier.Exchange.Endpoint
import Courier.Proofs.Url.RoundTrip

/-!
# The address below a base address

The address that takes events is the base address with a fixed segment at the end of its text, in
the place of the slashes there (`render_extended`). What that text is depends on how the base
address ends : the endpoint keeps who serves it in any case, but lies below the path of the base
address only if no query and no fragment comes after the path (`ofBase_below`).
-/

namespace Courier

open Text (dropEndWhile)

namespace Url

/-- The segment that takes events. -/
def eventSegment : List Char := "process-event".toList

/-- A text with the segment that takes events behind it, in the place of slashes at its end. -/
def below (cs : List Char) : List Char :=
  dropEndWhile (· == '/') cs ++ '/' :: eventSegment

/-- A path with one more segment, in the place of empty ones at its end. -/
def Path.below : Path → Path
  | .flat text => .flat text
  | .segments parts => .segments (parts.rdropWhile List.isEmpty ++ [eventSegment])

/-- An address with the segment that takes events behind whatever it ends with. -/
def extended (u : Url) : Url :=
  match u.query, u.fragment with
  | none, none => { u with path := u.path.below }
  | some q, none => { u with query := some (below q) }
  | _, some f => { u with fragment := some (below f) }

variable {u : Url} {parts : List (List Char)}

theorem isSegment_eventSegment : IsSegment eventSegment where
  clean := Reserve.clean_of_all (by decide)
  slash := by decide
  backslash := by decide
  doubleDot := by decide
  singleDot := by decide

theorem isPath_below (h : ∀ s ∈ parts, IsSegment s) :
    IsPath (parts.rdropWhile List.isEmpty ++ [eventSegment]) where
  segment := fun s hs => by
    rcases List.mem_append.1 hs with hs | hs
    · exact h s ((List.rdropWhile_prefix _ _).subset hs)
    · exact List.mem_singleton.1 hs ▸ isSegment_eventSegment
  ne_nil := by simp

theorem below_append_cons {c : Char} (h : c ≠ '/') (cs rest : List Char) :
    below (cs ++ c :: rest) = cs ++ c :: below rest := by
  rw [below, Text.dropEndWhile_append_of_neg (by simpa using h)]
  simp [below]

/-- The empty segments at the end of a path are the slashes there. -/
theorem flatMap_rdropWhile (h : ∀ s ∈ parts, '/' ∉ s) :
    (parts.rdropWhile List.isEmpty).flatMap ('/' :: ·) =
      dropEndWhile (· == '/') (parts.flatMap ('/' :: ·)) := by
  induction parts using List.reverseRecOn with
  | nil => rfl
  | append_singleton parts s ih =>
    have hparts := ih fun d hd => h d (List.mem_append_left _ hd)
    have hs := h s (by simp)
    rw [List.flatMap_append, List.flatMap_singleton]
    rcases List.eq_nil_or_concat' s with rfl | ⟨s, c, rfl⟩
    · rw [List.rdropWhile_concat_pos _ _ _ rfl, hparts]
      exact (List.rdropWhile_concat_pos _ _ '/' rfl).symm
    · have hc : c ≠ '/' := by
        rintro rfl
        exact hs (by simp)
      rw [List.rdropWhile_concat_neg _ _ _ (by simp), List.flatMap_append, List.flatMap_singleton,
        ← List.cons_append, ← List.append_assoc]
      exact (List.rdropWhile_concat_neg _ _ c (by simpa using hc)).symm

theorem render_below (h : ∀ s ∈ parts, IsSegment s) :
    (Path.segments parts).below.render = below (Path.segments parts).render := by
  rw [Path.below, Path.render, Path.render, below, List.flatMap_append,
    flatMap_rdropWhile fun s hs => (h s hs).slash, List.flatMap_singleton]

theorem clean_below {r : Reserve} {cs : List Char} (h : r.Clean cs)
    (hsegment : r.Clean ('/' :: eventSegment)) : r.Clean (below cs) :=
  Reserve.Clean.append (fun c hc => h c ((Text.prefix_dropEndWhile _ _).subset hc)) hsegment

theorem Normal.extended (h : u.Normal) : u.extended.Normal := by
  obtain ⟨parts, hparts, hpath⟩ := h.path
  have hbelow : u.path.below = .segments (parts.rdropWhile List.isEmpty ++ [eventSegment]) := by
    rw [hparts, Path.below]
  have hquery : ∀ q, Reserve.specialQuery.Clean q → Reserve.specialQuery.Clean (below q) :=
    fun q hq => clean_below hq (Reserve.clean_of_all (by decide))
  have hfragment : ∀ f, Reserve.fragment.Clean f → Reserve.fragment.Clean (below f) :=
    fun f hf => clean_below hf (Reserve.clean_of_all (by decide))
  rw [Url.extended]
  split
  · exact { h with path := ⟨_, hbelow, isPath_below hpath.segment⟩ }
  · next q hq _ =>
    exact { h with query := fun q' hq' => Option.some.inj hq' ▸ hquery q (h.query q hq) }
  · next f hf =>
    exact { h with fragment := fun f' hf' => Option.some.inj hf' ▸ hfragment f (h.fragment f hf) }

theorem extended_scheme (u : Url) : u.extended.scheme = u.scheme := by
  rw [extended]
  split <;> rfl

theorem extended_authority (u : Url) : u.extended.authority = u.authority := by
  rw [extended]
  split <;> rfl

/-- The text of the extended address is that of the address, extended. -/
theorem render_extended (h : u.Normal) : u.extended.render = below u.render := by
  obtain ⟨a, ha, hauthority⟩ := h.authority
  obtain ⟨parts, hparts, hpath⟩ := h.path
  rw [render_of_authority ha, render_of_authority ((extended_authority u).trans ha),
    extended_scheme, Url.extended]
  -- the text ends with what follows the last mark, or with what follows the authority
  split
  · next hq hf =>
    obtain ⟨cs, c, hcs⟩ := (List.eq_nil_or_concat' a.render).resolve_left hauthority.render_ne_nil
    have hc := endsAuthority_eq_false_iff.1 (hauthority.of_mem_render (c := c) (by simp [hcs])).2
    have hbelow := below_append_cons hc.1 (u.scheme ++ ':' :: '/' :: '/' :: cs) u.path.render
    rw [hparts, ← render_below hpath.segment] at hbelow
    simpa [hcs, hparts, hq, hf, tailText] using hbelow.symm
  · next q hq hf =>
    have hbelow := below_append_cons (by decide : '?' ≠ '/')
      (u.scheme ++ ':' :: '/' :: '/' :: (a.render ++ u.path.render)) q
    simpa [hq, hf, tailText] using hbelow.symm
  · next f hf =>
    have hbelow := below_append_cons (by decide : '#' ≠ '/')
      (u.scheme ++ ':' :: '/' :: '/' :: (a.render ++ (u.path.render ++ tailText u.query none))) f
    simpa [hf, tailText] using hbelow.symm

end Url

namespace Endpoint

variable {form : Url.NameForm} {base : String} {e : Endpoint}

theorem ofBaseWith_eq_ok (h : ofBaseWith form base = .ok e) :
    Url.parseWith form base = .ok e.base ∧
      Url.parseWith form (extend e.base) = .ok e.processEvent := by
  rw [ofBaseWith] at h
  split at h
  · cases h
  · next url hurl =>
    split at h
    · split at h
      · cases h
      · next processEvent hprocess =>
        cases h
        exact ⟨hurl, hprocess⟩
    · cases h

/-- The endpoint of a base address of the web is that address, extended. -/
theorem processEvent_eq_extended (hform : form.Lawful) (h : ofBaseWith form base = .ok e)
    (hweb : Url.schemeKind e.base.scheme = .web) : e.processEvent = e.base.extended := by
  obtain ⟨hbase, hprocess⟩ := ofBaseWith_eq_ok h
  have hnormal := Url.normal_of_parse hform hbase hweb
  refine hnormal.extended.eq_of_parse_toText hform ?_
  rw [Url.toText, Url.render_extended hnormal]
  exact hprocess

/-- The endpoint of a base address of the web keeps its scheme and who serves it. It lies below the
path if the address ends with its path, and else has the same path and goes on where the address
ends, in the query or in the fragment. In which form host names are written does not matter, as long
as it is a lawful one. -/
theorem ofBase_below (hform : form.Lawful) (h : ofBaseWith form base = .ok e)
    (hscheme : e.base.scheme = "http".toList ∨ e.base.scheme = "https".toList) :
    Url.parseWith form base = .ok e.base ∧
      e.processEvent.scheme = e.base.scheme ∧
      e.processEvent.authority = e.base.authority ∧
      (e.base.query = none → e.base.fragment = none →
        e.processEvent.path.render = Url.below e.base.path.render ∧
          e.processEvent.query = none ∧ e.processEvent.fragment = none) ∧
      (∀ q, e.base.query = some q → e.base.fragment = none →
        e.processEvent.path = e.base.path ∧
          e.processEvent.query = some (Url.below q) ∧ e.processEvent.fragment = none) ∧
      ∀ f, e.base.fragment = some f →
        e.processEvent.path = e.base.path ∧
          e.processEvent.query = e.base.query ∧ e.processEvent.fragment = some (Url.below f) := by
  have hweb : Url.schemeKind e.base.scheme = .web := by
    rcases hscheme with hscheme | hscheme <;> rw [hscheme] <;> decide
  have hbase := (ofBaseWith_eq_ok h).1
  obtain ⟨parts, hparts, hpath⟩ := (Url.normal_of_parse hform hbase hweb).path
  rw [processEvent_eq_extended hform h hweb]
  refine ⟨hbase, Url.extended_scheme _, Url.extended_authority _, fun hq hf => ?_,
    fun q hq hf => ?_, fun f hf => ?_⟩
  · have hrender := Url.render_below hpath.segment
    rw [← hparts] at hrender
    simp [Url.extended, hq, hf, hrender]
  · simp [Url.extended, hq, hf]
  · simp [Url.extended, hf]

/-- The endpoint of an address with credentials, a port number and slashes at its end. -/
def slashed : Endpoint :=
  let authority : Url.Authority := ⟨['u'], some ['p'], .ipv6 [0, 0, 0, 0, 0, 0, 0, 1], some 8443⟩
  let url (parts : List (List Char)) : Url :=
    ⟨"https".toList, some authority, .segments parts, none, none⟩
  ⟨url [['a'], [], []], url [['a'], "process-event".toList]⟩

theorem ofBase_below_slashed :
    ofBase "https://u:p@[::1]:8443/a//" = .ok slashed ∧ slashed.base.scheme = "https".toList ∧
      slashed.processEvent.authority = slashed.base.authority ∧
      slashed.processEvent.path.render = Url.below slashed.base.path.render := by
  have h : ofBase "https://u:p@[::1]:8443/a//" = .ok slashed := by decide +kernel
  obtain ⟨-, -, hauthority, hpath, -⟩ := ofBase_below Url.lawful_domainToAscii h (.inr rfl)
  exact ⟨h, rfl, hauthority, (hpath rfl rfl).1⟩

/-- The endpoint of an address with a query has the path of the address, and nothing below it. -/
theorem ofBase_not_below_query : ∃ e, ofBase "http://a/b?q=1" = .ok e ∧
    e.base.scheme = "http".toList ∧ e.processEvent.path.render ≠ Url.below e.base.path.render := by
  refine ⟨⟨⟨"http".toList, some ⟨[], none, .domain ['a'], none⟩, .segments [['b']],
    some "q=1".toList, none⟩, ⟨"http".toList, some ⟨[], none, .domain ['a'], none⟩,
      .segments [['b']], some "q=1/process-event".toList, none⟩⟩, ?_, rfl, ?_⟩
  · decide +kernel
  · decide +kernel

end Endpoint

end Courier
