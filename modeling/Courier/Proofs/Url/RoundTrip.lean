import Courier.Proofs.Text.Blank
import Courier.Proofs.Url.Authority
import Courier.Proofs.Url.Path

/-!
# Addresses and their texts

Reading an address of the web gives one in normal form (`normal_of_parse`), whose text stands for
no other address (`Normal.eq_of_parse_toText`) : scheme, authority, path, query and fragment hold
none of the marks at which the text is cut, and nothing that would be dropped, escaped or replaced.
That is so however host names are written, as long as the form of names is lawful.
-/

namespace Courier.Url

/-- An address of the web in normal form. -/
structure Normal (u : Url) : Prop where
  scheme : schemeKind u.scheme = .web
  authority : ∃ a, u.authority = some a ∧ a.Normal u.scheme
  path : ∃ parts, u.path = .segments parts ∧ IsPath parts
  query : ∀ q, u.query = some q → Reserve.specialQuery.Clean q
  fragment : ∀ f, u.fragment = some f → Reserve.fragment.Clean f

variable {form : NameForm} {u v : Url} {scheme cs : List Char}

/-! ## What an address reads as -/

theorem clean_splitTail (cs : List Char) :
    (∀ q, (splitTail .web cs).2.1 = some q → Reserve.specialQuery.Clean q) ∧
      ∀ f, (splitTail .web cs).2.2 = some f → Reserve.fragment.Clean f := by
  simp only [splitTail]
  split
  · refine ⟨fun q hq => ?_, fun f hf => ?_⟩
    · cases hq
      exact Reserve.clean_write _ _
    · dsimp only at hf
      split at hf
      · cases hf
        exact Reserve.clean_write _ _
      · cases hf
  · refine ⟨fun q hq => absurd hq (by simp), fun f hf => ?_⟩
    dsimp only at hf
    split at hf
    · cases hf
      exact Reserve.clean_write _ _
    · cases hf

theorem parseAfterSlashes_eq_ok {k : SchemeKind} (h : parseAfterSlashes form scheme k cs = .ok u) :
    ∃ a atEnd, parseAuthority form scheme k
        ((splitTail k cs).1.takeWhile (!endsAuthority k ·)) atEnd = .ok a ∧
      u = ⟨scheme, some a, parsePath k ((splitTail k cs).1.dropWhile (!endsAuthority k ·)),
        (splitTail k cs).2.1, (splitTail k cs).2.2⟩ := by
  simp only [parseAfterSlashes, bind, Except.bind, pure, Except.pure] at h
  split at h
  · cases h
  · next a ha => exact ⟨a, _, ha, (Except.ok.inj h).symm⟩

theorem parseFile_scheme (h : parseFile form cs = .ok u) : u.scheme = "file".toList := by
  simp only [parseFile, bind, Except.bind, pure, Except.pure] at h
  split at h
  · split_ifs at h with hslashes hdrive hslash
    · cases h
      rfl
    · split at h
      · cases h
      · cases h
        rfl
    · cases h
      rfl
    · cases h
      rfl
  · cases h
    rfl
  · cases h
    rfl

/-- An address of the web is read off what follows its scheme and its slashes. -/
theorem parseWith_eq_ok {s : String} (h : parseWith form s = .ok u)
    (hweb : schemeKind u.scheme = .web) :
    ∃ rest, splitScheme? (significant s.toList) = some (u.scheme, rest) ∧
      parseAfterSlashes form u.scheme .web
        (rest.dropWhile fun c => c == '/' || c == '\\') = .ok u := by
  rw [parseWith] at h
  split at h
  · cases h
  next scheme rest hscheme =>
  have hother : ∀ {cs}, schemeKind scheme = .other →
      parseAfterSlashes form scheme .other cs = .ok u → False := by
    intro cs hkind hparse
    obtain ⟨_, _, -, rfl⟩ := parseAfterSlashes_eq_ok hparse
    cases hkind.symm.trans hweb
  cases hkind : schemeKind scheme with
  | file =>
    simp only [hkind] at h
    rw [parseFile_scheme h] at hweb
    exact absurd hweb (by decide)
  | web =>
    simp only [hkind] at h
    obtain ⟨_, _, -, hu⟩ := parseAfterSlashes_eq_ok h
    have hsame : u.scheme = scheme := by rw [hu]
    rw [hsame]
    exact ⟨rest, hscheme, h⟩
  | other =>
    simp only [hkind] at h
    split at h
    · exact (hother hkind h).elim
    · cases h
      cases hkind.symm.trans hweb
    · cases h
      cases hkind.symm.trans hweb

/-- Reading an address of the web gives one in normal form. -/
theorem normal_of_parse (hform : form.Lawful) {s : String} (h : parseWith form s = .ok u)
    (hweb : schemeKind u.scheme = .web) : u.Normal := by
  obtain ⟨rest, -, hrest⟩ := parseWith_eq_ok h hweb
  obtain ⟨a, atEnd, ha, hu⟩ := parseAfterSlashes_eq_ok hrest
  have hclean := clean_splitTail (rest.dropWhile fun c => c == '/' || c == '\\')
  rw [hu] at hweb ⊢
  exact ⟨hweb, ⟨a, rfl, Authority.normal_of_parse hform ha⟩, isPath_parsePath _, hclean.1, hclean.2⟩

/-! ## Reading the text of an address -/

/-- The query and the fragment of an address as they stand in its text. -/
def tailText (query fragment : Option (List Char)) : List Char :=
  (match query with | none => [] | some q => '?' :: q) ++
    (match fragment with | none => [] | some f => '#' :: f)

theorem render_of_authority {a : Authority} (h : u.authority = some a) :
    u.render = u.scheme ++ ':' :: '/' :: '/' ::
      (a.render ++ (u.path.render ++ tailText u.query u.fragment)) := by
  simp only [render, h, List.cons_append, List.append_assoc]
  rfl

/-- The tail of an address is cut off its text as it is. -/
theorem splitTail_append {head : List Char} {query fragment : Option (List Char)}
    (hhead : ∀ c ∈ head, c ≠ '?' ∧ c ≠ '#')
    (hquery : ∀ q, query = some q → Reserve.specialQuery.Clean q)
    (hfragment : ∀ f, fragment = some f → Reserve.fragment.Clean f) :
    splitTail .web (head ++ tailText query fragment) = (head, query, fragment) := by
  have hpath : ∀ c ∈ head, (c != '?' && c != '#') = true := fun c hc => by simp [hhead c hc]
  have hfrag : ∀ f, fragment = some f → Reserve.fragment.write f = f := fun f hf =>
    Reserve.write_of_clean (hfragment f hf)
  have hspecial : SchemeKind.web.isSpecial = true := by decide
  simp only [splitTail, List.takeWhile_append_of_pos hpath, List.dropWhile_append_of_pos hpath]
  cases query with
  | none =>
    cases fragment with
    | none => simp [tailText]
    | some f => simp [tailText, hfrag]
  | some q =>
    have hmark : ∀ c ∈ q, (c != '#') = true := fun c hc => by
      simp only [bne_iff_ne]
      rintro rfl
      exact (hquery q rfl).not_mem (by decide) hc
    have hwrite := Reserve.write_of_clean (hquery q rfl)
    cases fragment with
    | none =>
      have htake : q.takeWhile (· != '#') = q := List.takeWhile_eq_self_iff.2 hmark
      have hdrop : q.dropWhile (· != '#') = [] := List.dropWhile_eq_nil_iff.2 hmark
      simp [tailText, htake, hdrop, hwrite, hspecial]
    | some f =>
      simp [tailText, List.takeWhile_append_of_pos hmark, List.dropWhile_append_of_pos hmark,
        hwrite, hfrag, hspecial]

theorem mem_webSchemes (h : schemeKind scheme = .web) :
    scheme ∈ ["http", "https", "ws", "wss", "ftp"].map String.toList := by
  rw [schemeKind] at h
  split at h
  · cases h
  · split at h
    · next hany =>
      obtain ⟨s, hs, heq⟩ := List.any_eq_true.1 hany
      exact List.mem_map.2 ⟨s, hs, of_decide_eq_true heq⟩
    · cases h

theorem splitScheme?_append (h : schemeKind scheme = .web) (rest : List Char) :
    splitScheme? (scheme ++ ':' :: rest) = some (scheme, rest) := by
  have hmem := mem_webSchemes h
  simp only [List.map_cons, List.map_nil, List.mem_cons, List.not_mem_nil, or_false] at hmem
  rcases hmem with rfl | rfl | rfl | rfl | rfl <;> rfl

theorem significant_of_blank_lt (h : ∀ c ∈ cs, 0x20 < c.toNat) : significant cs = cs := by
  have hfront : cs.dropWhile (·.toNat ≤ 0x20) = cs :=
    Text.dropWhile_eq_self fun c hc => by simpa using h c (List.mem_of_head? hc)
  have hback : Text.dropEndWhile (·.toNat ≤ 0x20) cs = cs :=
    Text.dropEndWhile_eq_self_iff.2 fun c hc => by simpa using h c (List.mem_of_getLast? hc)
  rw [significant, hfront, hback, List.filter_eq_self]
  intro c hc
  have hlt := h c hc
  simp only [Bool.and_eq_true, bne_iff_ne]
  refine ⟨⟨?_, ?_⟩, ?_⟩ <;> rintro rfl <;> exact absurd hlt (by decide)

theorem Normal.blank_lt_tailText (h : u.Normal) :
    ∀ c ∈ tailText u.query u.fragment, 0x20 < c.toNat := by
  have hmark : ∀ {r : Reserve} {m : Char} {cs : List Char}, r.Clean cs → r ≠ .control →
      0x20 < m.toNat → ∀ c ∈ m :: cs, 0x20 < c.toNat := fun hclean hr hm c hc =>
    (List.mem_cons.1 hc).elim (fun heq => heq ▸ hm) (hclean.blank_lt hr c)
  intro c hc
  rcases List.mem_append.1 hc with hc | hc
  · split at hc
    · cases hc
    · next q hq => exact hmark (h.query q hq) (by decide) (by decide) c hc
  · split at hc
    · cases hc
    · next f hf => exact hmark (h.fragment f hf) (by decide) (by decide) c hc

/-- The text of an address in normal form has no blank. -/
theorem Normal.blank_lt (h : u.Normal) : ∀ c ∈ u.render, 0x20 < c.toNat := by
  obtain ⟨a, ha, hauthority⟩ := h.authority
  obtain ⟨parts, hparts, hpath⟩ := h.path
  intro c hc
  rw [render_of_authority ha, hparts] at hc
  simp only [List.mem_append, List.mem_cons] at hc
  rcases hc with hc | rfl | rfl | rfl | hc | hc | hc
  · have hschemes : (["http", "https", "ws", "wss", "ftp"].map String.toList).all
        (fun scheme => scheme.all (0x20 < ·.toNat)) = true := by decide
    have hscheme := List.all_eq_true.1 hschemes _ (mem_webSchemes h.scheme)
    simpa using List.all_eq_true.1 hscheme c hc
  · decide
  · decide
  · decide
  · exact (hauthority.of_mem_render hc).1
  · exact (of_mem_render_segments hpath.segment hc).1
  · exact h.blank_lt_tailText c hc

/-- The tail of an address in normal form is cut off what follows its slashes. -/
theorem Normal.splitTail_render {a : Authority} (h : u.Normal) (ha : a.Normal scheme) :
    splitTail .web (a.render ++ (u.path.render ++ tailText u.query u.fragment)) =
      (a.render ++ u.path.render, u.query, u.fragment) := by
  obtain ⟨parts, hparts, hpath⟩ := h.path
  rw [← List.append_assoc]
  refine splitTail_append (fun c hc => ?_) h.query h.fragment
  rcases List.mem_append.1 hc with hc | hc
  · have hends := endsAuthority_eq_false_iff.1 (ha.of_mem_render hc).2
    exact ⟨hends.2.1, hends.2.2.1⟩
  · rw [hparts] at hc
    exact (of_mem_render_segments hpath.segment hc).2

/-- No slash of an authority is taken for one before it. -/
theorem Authority.Normal.dropWhile_render {a : Authority} (h : a.Normal scheme) (rest : List Char) :
    ('/' :: '/' :: (a.render ++ rest)).dropWhile (fun c => c == '/' || c == '\\') =
      a.render ++ rest := by
  obtain ⟨c, cs, hcs⟩ := List.exists_cons_of_ne_nil h.render_ne_nil
  have hc := endsAuthority_eq_false_iff.1 (h.of_mem_render (hcs ▸ List.mem_cons_self)).2
  simp [hcs, hc]

/-- The text of an address in normal form stands for no other address. -/
theorem Normal.eq_of_parse_toText (hform : form.Lawful) (hnormal : u.Normal)
    (h : parseWith form u.toText = .ok v) : v = u := by
  obtain ⟨a, ha, hauthority⟩ := hnormal.authority
  obtain ⟨parts, hparts, hpath⟩ := hnormal.path
  rw [parseWith, toText, String.toList_ofList, significant_of_blank_lt hnormal.blank_lt,
    render_of_authority ha, splitScheme?_append hnormal.scheme] at h
  simp only [hnormal.scheme] at h
  rw [hauthority.dropWhile_render] at h
  obtain ⟨a', atEnd, ha', rfl⟩ := parseAfterSlashes_eq_ok h
  rw [hnormal.splitTail_render hauthority] at ha' ⊢
  have hends : ∀ c ∈ a.render, (!endsAuthority .web c) = true := fun c hc => by
    simp [(hauthority.of_mem_render hc).2]
  have hslash : (!endsAuthority .web '/') = false := by decide
  have hpathText : u.path.render = '/' :: ['/'].intercalate parts := by
    rw [hparts, render_segments hpath.ne_nil]
  simp only [List.takeWhile_append_of_pos hends, List.dropWhile_append_of_pos hends] at ha' ⊢
  rw [hpathText, List.takeWhile_cons_of_neg (by simp [hslash]), List.append_nil] at ha'
  rw [hpathText, List.dropWhile_cons_of_neg (by simp [hslash]), ← hpathText, hparts,
    parsePath_render hpath, hauthority.eq_of_parse_render hform ha', ← ha, ← hparts]

end Courier.Url
