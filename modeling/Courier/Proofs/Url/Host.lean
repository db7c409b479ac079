import Courier.Proofs.Text.Lossy
import Courier.Proofs.Url.Domain
import Courier.Url.Basic

/-!
# Hosts of the web

What reads as the host of a web address is in normal form (`Host.normal_of_parse`), and a host in
normal form is the only one that its own text can stand for (`Host.Normal.eq_of_parse_render`). Both
hold for every lawful form of names. That the text of a host stands for one at all is not said
here : a name in Punycode is decoded again to check it.
-/

namespace Courier.Url

/-- A host of the web in normal form. -/
def Host.Normal : Host → Prop
  | .empty => False
  | .domain name => IsName name ∧ name ≠ [] ∧ endsInNumber name = false
  | .ipv4 n => n < 256 ^ 4
  | .ipv6 groups => Groups groups ∧ groups.length = 8

variable {form : NameForm} {text name : List Char} {host host' : Host} {c : Char}

/-! ## Characters of hosts -/

/-- Whether a character may stand in the text of a host. -/
def isHostChar (c : Char) : Bool :=
  isNameChar c || c == ':' || c == '[' || c == ']'

theorem isNameChar_of_mem_toDigits {base n : Nat} (hb : 1 < base) (hb' : base ≤ 16)
    (h : c ∈ Nat.toDigits base n) : isNameChar c = true := by
  obtain ⟨d, hd, rfl⟩ := of_mem_toDigits hb h
  exact (by decide : ∀ d < 16, isNameChar (Nat.digitChar d) = true) d (by omega)

theorem isName_renderIpv4 (n : Nat) : IsName (renderIpv4 n) := by
  rw [renderIpv4_eq]
  refine Text.forall_mem_intercalate (by decide) fun part hpart c hc => ?_
  obtain ⟨m, -, rfl⟩ := List.mem_map.1 hpart
  exact isNameChar_of_mem_toDigits (by decide) (by decide) hc

/-- The text of an IPv6 address is of hexadecimal digits and colons. -/
theorem of_mem_renderIpv6 {groups : List Nat} (h : c ∈ renderIpv6 groups) :
    isNameChar c = true ∨ c = ':' := by
  have hjoin : ∀ {gs : List Nat}, ∀ c ∈ joinGroups gs, isNameChar c = true ∨ c = ':' := by
    intro gs
    refine Text.forall_mem_intercalate (.inr rfl) fun part hpart c hc => ?_
    obtain ⟨m, -, rfl⟩ := List.mem_map.1 hpart
    exact .inl (isNameChar_of_mem_toDigits (by decide) (by decide) hc)
  rw [renderIpv6] at h
  split at h
  · exact hjoin c h
  · rcases List.mem_append.1 h with h | h
    · exact hjoin c h
    · rcases List.mem_cons.1 h with h | h
      · exact .inr h
      · rcases List.mem_cons.1 h with h | h
        · exact .inr h
        · exact hjoin c h

theorem Host.Normal.isHostChar_of_mem_render (h : host.Normal) (hc : c ∈ host.render) :
    isHostChar c = true := by
  cases host with
  | empty => exact h.elim
  | domain name => simp [isHostChar, h.1 c hc]
  | ipv4 n => simp [isHostChar, isName_renderIpv4 n c hc]
  | ipv6 groups =>
    simp only [Host.render, List.mem_cons, List.mem_append, List.not_mem_nil, or_false] at hc
    rcases hc with rfl | hc | rfl
    · decide
    · rcases of_mem_renderIpv6 hc with hc | rfl
      · simp [isHostChar, hc]
      · decide
    · decide

theorem Host.Normal.render_ne_nil (h : host.Normal) : host.render ≠ [] := by
  cases host with
  | empty => exact h.elim
  | domain name => exact h.2.1
  | ipv4 n => simp [Host.render, renderIpv4]
  | ipv6 groups => exact List.cons_ne_nil _ _

/-! ## Reading -/

theorem unescape_of_not_mem : ∀ {bytes : List UInt8}, 37 ∉ bytes → unescape bytes = bytes
  | [], _ => rfl
  | b :: bytes, h => by
    rw [List.mem_cons, not_or] at h
    rw [unescape, unescape_of_not_mem h.2]
    rintro a b' rest rfl
    exact absurd rfl h.1

/-- A name in ASCII form is what a host gives that is written so. -/
theorem decodeLossy_unescape_encode (h : IsName name) :
    Utf8.decodeLossy (unescape (Utf8.encode name)) = name := by
  rw [unescape_of_not_mem, Utf8.decodeLossy_encode]
  intro hmem
  obtain ⟨c, hc, hb⟩ := List.mem_flatMap.1 hmem
  have hname := h c hc
  have hascii : c.toNat < 0x80 := by
    simp only [isNameChar, Bool.and_eq_true, decide_eq_true_eq] at hname
    exact hname.1.1
  rw [Utf8.encodeChar, if_pos hascii, List.mem_singleton] at hb
  have hpercent : c = '%' := by
    have hn := congrArg UInt8.toNat hb
    rw [UInt8.toNat_ofNat_of_lt' (show c.toNat < 256 by omega)] at hn
    exact Char.toNat_inj.1 hn.symm
  rw [hpercent] at hname
  exact absurd hname (by decide)

theorem IsName.ne_bracket (h : IsName name) (rest : List Char) : name ≠ '[' :: rest := by
  rintro rfl
  exact absurd (h '[' List.mem_cons_self) (by decide)

/-- What the host of a web address can be. -/
theorem parseHost_eq_ok (h : parseHost form .web text = .ok host) :
    (∃ rest groups, text = '[' :: rest ∧ ipv6? rest.dropLast = some groups ∧
      host = .ipv6 groups) ∨
    ∃ name, (∀ rest, text ≠ '[' :: rest) ∧
      form (Utf8.decodeLossy (unescape (Utf8.encode text))) = some name ∧ name ≠ [] ∧
        ((endsInNumber name = false ∧ host = .domain name) ∨
          ∃ n, endsInNumber name = true ∧ ipv4? name = some n ∧ host = .ipv4 n) := by
  unfold parseHost at h
  split at h
  · next rest =>
    split at h
    · split at h
      · next groups hgroups =>
        cases h
        exact .inl ⟨rest, groups, rfl, hgroups, rfl⟩
      · cases h
    · cases h
  · next hbracket =>
    rw [if_pos (by decide)] at h
    split at h
    · cases h
    · cases h
    · next name hname hdomain =>
      refine .inr ⟨name, hbracket, hdomain, hname, ?_⟩
      split at h
      · next hnumber =>
        split at h
        · next n hn =>
          cases h
          exact .inr ⟨n, hnumber, hn, rfl⟩
        · cases h
      · next hnumber =>
        cases h
        exact .inl ⟨by simpa using hnumber, rfl⟩

theorem Host.normal_of_parse (hform : form.Lawful) (h : parseHost form .web text = .ok host) :
    host.Normal := by
  rcases parseHost_eq_ok h with ⟨rest, groups, -, hgroups, rfl⟩ |
    ⟨name, -, hname, hne, ⟨hnumber, rfl⟩ | ⟨n, -, hn, rfl⟩⟩
  · exact ipv6?_groups hgroups
  · exact ⟨hform.isName hname, hne, hnumber⟩
  · exact ipv4?_lt hn

/-- A name in ASCII form stands for the domain or the IPv4 address that it is. -/
theorem parseHost_of_isName (hform : form.Lawful) (hname : IsName name)
    (h : parseHost form .web name = .ok host) :
    (endsInNumber name = false ∧ host = .domain name) ∨
      ∃ n, endsInNumber name = true ∧ ipv4? name = some n ∧ host = .ipv4 n := by
  rcases parseHost_eq_ok h with ⟨rest, groups, heq, -⟩ | ⟨name', -, hdomain, -, hkind⟩
  · exact absurd heq (hname.ne_bracket rest)
  · rw [decodeLossy_unescape_encode hname] at hdomain
    rwa [hform.of_isName hname hdomain] at hkind

/-- The text of a host in normal form stands for no other host. -/
theorem Host.Normal.eq_of_parse_render (hform : form.Lawful) (hnormal : host.Normal)
    (h : parseHost form .web host.render = .ok host') : host' = host := by
  cases host with
  | empty => exact hnormal.elim
  | domain name =>
    rcases parseHost_of_isName hform hnormal.1 h with ⟨-, heq⟩ | ⟨n, hnumber, -⟩
    · exact heq
    · cases hnormal.2.2.symm.trans hnumber
  | ipv4 n =>
    rcases parseHost_of_isName hform (isName_renderIpv4 n) h with ⟨hnumber, -⟩ | ⟨m, -, hm, heq⟩
    · cases hnumber.symm.trans (endsInNumber_renderIpv4 n)
    · cases hm.symm.trans (ipv4?_renderIpv4 hnormal)
      exact heq
  | ipv6 groups =>
    rcases parseHost_eq_ok h with ⟨rest, groups', heq, hgroups, rfl⟩ | ⟨-, hbracket, -⟩
    · rw [← (List.cons.inj heq).2, List.dropLast_concat,
        ipv6?_renderIpv6 hnormal.1 hnormal.2] at hgroups
      cases hgroups
      rfl
    · exact absurd rfl (hbracket _)

end Courier.Url
