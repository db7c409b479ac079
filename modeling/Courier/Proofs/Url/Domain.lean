import Courier.Proofs.Url.Address
import Courier.Url.Domain
import Mathlib.Data.List.Basic
import Mathlib.Tactic.SplitIfs

/-!
# Domain names in ASCII

The ASCII form of a domain name is made of few characters (`isName_domainToAscii`) : no capital
letter is left by the mapping of characters, what is forbidden is rejected, and a label in Punycode
is of small letters, digits and hyphens besides the ASCII characters that it had. A name in ASCII
form has no other (`domainToAscii_of_isName`). That is all that is needed of it
(`lawful_domainToAscii`).
-/

namespace Courier.Url

theorem IsName.append {name name' : List Char} (h : IsName name) (h' : IsName name') :
    IsName (name ++ name') :=
  fun c hc => (List.mem_append.1 hc).elim (h c) (h' c)

variable {c d : Char} {label name name' : List Char}

/-! ## Characters -/

theorem toLower_toLower (h : c.toNat < 0x80) : c.toLower.toLower = c.toLower := by
  have hall : ∀ n < 0x80, (Char.ofNat n).toLower.toLower = (Char.ofNat n).toLower := by
    decide +kernel
  have hc := hall c.toNat h
  rwa [Char.ofNat_toNat] at hc

/-- A number that is none of a character gives the null character. -/
theorem toNat_ofNat_or (n : Nat) : (Char.ofNat n).toNat = n ∨ Char.ofNat n = Char.ofNat 0 := by
  by_cases h : n.isValidChar
  · rw [Char.ofNat, dif_pos h]
    exact .inl rfl
  · rw [Char.ofNat, dif_neg h]
    exact .inr rfl

theorem small?_ge {n m : Nat} (h : small? n = some m) : 0x80 ≤ m := by
  have hall : ∀ r ∈ capitals, (0x80 : Int) ≤ r.1 + r.2.2.2 := by
    decide +kernel
  obtain ⟨r, hr, rfl⟩ := Option.map_eq_some_iff.1 h
  have hle := List.find?_some hr
  have hge := hall r (List.mem_of_find?_eq_some hr)
  simp only [Bool.and_eq_true, decide_eq_true_eq] at hle
  omega

/-- Capital ASCII letters do not stand in a mapped name. -/
theorem toLower_of_mem_mapDomainChar (h : c ∈ mapDomainChar d) (hc : c.toNat < 0x80) :
    c.toLower = c := by
  simp only [mapDomainChar] at h
  split_ifs at h with hascii hdrop hstop hwide <;>
    simp only [List.mem_singleton, List.not_mem_nil] at h
  · rw [h]
    exact toLower_toLower hascii
  · rw [h]
    rfl
  · rw [h]
    refine toLower_toLower ?_
    rcases toNat_ofNat_or (d.toNat - 0xFEE0) with hn | hn
    · omega
    · rw [hn]
      decide
  · have hge : 0x80 ≤ (small? d.toNat).getD d.toNat := by
      cases hs : small? d.toNat with
      | none => exact Nat.not_lt.1 hascii
      | some m => exact small?_ge hs
    rcases toNat_ofNat_or ((small? d.toNat).getD d.toNat) with hn | hn
    · rw [h] at hc
      omega
    · rw [h, hn]
      rfl

theorem mapDomainChar_of_isNameChar (h : isNameChar c = true) : mapDomainChar c = [c] := by
  simp only [isNameChar, Bool.and_eq_true, decide_eq_true_eq, beq_iff_eq] at h
  rw [mapDomainChar, if_pos h.1.1, h.1.2]

/-! ## Codes of labels -/

namespace Punycode

theorem isNameChar_digitChar : ∀ n < 36, isNameChar (digitChar n) = true := by
  decide +kernel

theorem isName_numeral (bias place value : Nat) : IsName (numeral bias place value) := by
  have hdigit : ∀ n < 36, IsName [digitChar n] := fun n hn c hc =>
    List.mem_singleton.1 hc ▸ isNameChar_digitChar n hn
  induction place, value using numeral.induct bias with
  | case1 place value t hlt =>
    have ht : t ≤ 26 := Nat.min_le_left _ _
    rw [numeral, if_pos hlt]
    exact hdigit _ (by omega)
  | case2 place value t hlt ih =>
    have ht : t ≤ 26 := Nat.min_le_left _ _
    have hmod : (value - t) % (36 - t) < 36 - t := Nat.mod_lt _ (by omega)
    rw [numeral, if_neg hlt]
    exact (hdigit (t + (value - t) % (36 - t)) (by omega)).append ih

theorem isName_see {basic n : Nat} {w : Writer} (h : IsName w.output) (c : Char) :
    IsName (w.see basic n c).output := by
  rw [Writer.see]
  split
  · exact h
  · split
    · exact h.append (isName_numeral _ _ _)
    · exact h

theorem isName_foldl_see {basic n : Nat} {w : Writer} (h : IsName w.output) (cs : List Char) :
    IsName (cs.foldl (Writer.see basic n) w).output := by
  induction cs generalizing w with
  | nil => exact h
  | cons c cs ih => exact ih (isName_see h c)

theorem isName_putAll {basic : Nat} (ns : List Nat) {start : Nat} {w : Writer}
    (h : IsName w.output) : IsName (Writer.putAll label basic w start ns).output := by
  induction ns generalizing start w with
  | nil => exact h
  | cons n ns ih =>
    rw [Writer.putAll]
    refine ih ?_
    exact isName_foldl_see (w := { w with delta := w.delta + (n - start) * (w.count + 1) }) h label

/-- The code of a label is a name if what it holds of ASCII is. -/
theorem isName_encode (h : ∀ c ∈ label, c.toNat < 0x80 → isNameChar c = true) :
    IsName (encode label) := by
  have hbasic : IsName (label.filter (·.toNat < 128)) := by
    intro c hc
    obtain ⟨hmem, hlt⟩ := List.mem_filter.1 hc
    exact h c hmem (by simpa using hlt)
  have hmark : IsName (if (label.filter (·.toNat < 128)).isEmpty then [] else ['-']) := by
    split
    · exact fun c hc => absurd hc List.not_mem_nil
    · exact fun c hc => List.mem_singleton.1 hc ▸ (by decide)
  exact (hbasic.append hmark).append (isName_putAll _ fun c hc => absurd hc List.not_mem_nil)

end Punycode

/-! ## Names -/

/-- A label in ASCII has no other ASCII form. -/
theorem labelToAscii_of_ascii {label' : List Char} (h : label.all (·.toNat < 0x80) = true)
    (hlabel : labelToAscii label = some label') : label' = label := by
  rw [labelToAscii, if_pos h] at hlabel
  split at hlabel
  · split at hlabel
    · cases hlabel
    · split at hlabel <;> cases hlabel
      rfl
  · cases hlabel
    rfl

theorem isName_labelToAscii {label' : List Char}
    (h : ∀ c ∈ label, c.toNat < 0x80 → isNameChar c = true)
    (hlabel : labelToAscii label = some label') : IsName label' := by
  by_cases hall : label.all (·.toNat < 0x80) = true
  · rw [labelToAscii_of_ascii hall hlabel]
    exact fun c hc => h c hc (by simpa using List.all_eq_true.1 hall c hc)
  · rw [labelToAscii, if_neg hall] at hlabel
    split at hlabel
    · cases hlabel
      have hmark : IsName ['x', 'n', '-', '-'] := List.all_eq_true.1 (by decide)
      exact hmark.append (Punycode.isName_encode h)
    · cases hlabel

/-- The labels of a name, and the ASCII form that they are joined to. -/
theorem domainToAscii_eq_some (h : domainToAscii name = some name') :
    (∀ c ∈ name.flatMap mapDomainChar, isForbidden c = false) ∧
      ∃ labels, ((name.flatMap mapDomainChar).splitOn '.').mapM labelToAscii = some labels ∧
        ['.'].intercalate labels = name' := by
  rw [domainToAscii] at h
  split at h
  · cases h
  · next hforbidden =>
    obtain ⟨labels, hlabels, hjoin⟩ := Option.map_eq_some_iff.1 h
    rw [splitParts_eq_splitOn] at hlabels
    refine ⟨fun c hc => ?_, labels, hlabels, hjoin⟩
    exact Bool.eq_false_iff.2 (List.any_eq_false.1 (Bool.eq_false_iff.2 hforbidden) c hc)

theorem isName_domainToAscii (h : domainToAscii name = some name') : IsName name' := by
  obtain ⟨hforbidden, labels, hlabels, rfl⟩ := domainToAscii_eq_some h
  refine Text.forall_mem_intercalate (by decide) fun label' hlabel' => ?_
  obtain ⟨label, hlabel, heq⟩ := exists_of_mem_mapM hlabels hlabel'
  refine isName_labelToAscii (fun c hc hascii => ?_) heq
  have hmem := (Text.of_mem_splitOn hlabel hc).1
  obtain ⟨d, -, hd⟩ := List.mem_flatMap.1 hmem
  simp [isNameChar, hascii, toLower_of_mem_mapDomainChar hd hascii, hforbidden c hmem]

/-- A name in ASCII form has no other. -/
theorem domainToAscii_of_isName (h : IsName name) (hname : domainToAscii name = some name') :
    name' = name := by
  have hmap : name.flatMap mapDomainChar = name := by
    rw [List.flatMap_congr fun c hc => mapDomainChar_of_isNameChar (h c hc),
      List.flatMap_singleton']
  obtain ⟨-, labels, hlabels, rfl⟩ := domainToAscii_eq_some hname
  rw [hmap] at hlabels
  have heq : labels = name.splitOn '.' := by
    refine eq_of_mapM (fun label hlabel label' heq => labelToAscii_of_ascii ?_ heq) hlabels
    refine List.all_eq_true.2 fun c hc => ?_
    have hc := h c (Text.of_mem_splitOn hlabel hc).1
    simp only [isNameChar, Bool.and_eq_true] at hc
    exact hc.1.1
  rw [heq, List.intercalate_splitOn]

theorem lawful_domainToAscii : NameForm.Lawful domainToAscii where
  isName := isName_domainToAscii
  of_isName := domainToAscii_of_isName

end Courier.Url
