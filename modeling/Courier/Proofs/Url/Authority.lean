import Courier.Proofs.Url.Escape
import Courier.Proofs.Url.Host
import Mathlib.Data.List.TakeWhile
import Mathlib.Tactic.SplitIfs

/-!
# Authorities of the web

Reading an authority gives one in normal form (`Authority.normal_of_parse`), and one in normal form
is the only one that its own text can stand for (`Authority.Normal.eq_of_parse_render`) : its parts
hold none of the marks between them. Nor do they hold what ends an authority
(`Authority.Normal.of_mem_render`).
-/

namespace Courier.Url

namespace Authority

/-- The user information as it stands in the text of an authority. -/
def userinfo (a : Authority) : List Char :=
  a.username ++ (match a.password with | none => [] | some p => ':' :: p)

/-- The port number as it stands in the text of an authority. -/
def portText (a : Authority) : List Char :=
  match a.portNumber with | none => [] | some n => ':' :: Nat.toDigits 10 n

theorem render_eq (a : Authority) : a.render =
    (if a.userinfo.isEmpty then [] else a.userinfo ++ ['@']) ++ (a.host.render ++ a.portText) :=
  List.append_assoc _ _ _

/-- An authority of the web in normal form, below a scheme. -/
structure Normal (scheme : List Char) (a : Authority) : Prop where
  username : Reserve.userinfo.Clean a.username
  password : ∀ p, a.password = some p → Reserve.userinfo.Clean p ∧ p ≠ []
  host : a.host.Normal
  port : ∀ n, a.portNumber = some n → n < 65536 ∧ defaultPort scheme ≠ some n

end Authority

variable {form : NameForm} {scheme text : List Char} {a a' : Authority} {c : Char} {atEnd : Bool}

/-! ## What an authority reads as -/

/-- The password of a user information. -/
def passwordOf (userinfo : List Char) : Option (List Char) :=
  match userinfo.dropWhile (· != ':') with
  | _ :: c :: rest => some (Reserve.userinfo.write (c :: rest))
  | _ => none

theorem eq_of_guard {ε α : Type} {p : Prop} [Decidable p] {e : ε} {x y : α}
    (h : (if p then Except.error e else Except.ok x) = Except.ok y) : x = y := by
  split at h
  · cases h
  · exact Except.ok.inj h

/-- How the parts of an authority come from its text. -/
theorem parseAuthority_eq_ok {k : SchemeKind}
    (h : parseAuthority form scheme k text atEnd = .ok a) :
    a.username = Reserve.userinfo.write
        (((splitUserinfo text).1.getD []).takeWhile (· != ':')) ∧
      a.password = passwordOf ((splitUserinfo text).1.getD []) ∧
      parseHost form k (splitHost false (splitUserinfo text).2).1 = .ok a.host ∧
      ∃ port, parsePort ((splitHost false (splitUserinfo text).2).2.drop 1) = .ok port ∧
        a.portNumber = if port = defaultPort scheme then none else port := by
  simp only [parseAuthority, bind, Except.bind, throw, throwThe, MonadExceptOf.throw, pure,
    Except.pure] at h
  split at h
  · cases h
  split at h
  · cases h
  split at h
  · cases h
  next host hhost =>
  split at h
  · cases h
  next port hport =>
  obtain rfl := eq_of_guard h
  exact ⟨rfl, rfl, hhost, port, hport, rfl⟩

theorem lt_of_parsePort {digits : List Char} {n : Nat}
    (h : parsePort digits = .ok (some n)) : n < 65536 := by
  rw [parsePort] at h
  split at h
  · split at h
    · cases h
    · split at h
      · split at h
        · next hn =>
          cases h
          exact hn
        · cases h
      · cases h
  · cases h

namespace Authority

/-- Reading an authority of the web gives one in normal form. -/
theorem normal_of_parse (hform : form.Lawful)
    (h : parseAuthority form scheme .web text atEnd = .ok a) : a.Normal scheme := by
  obtain ⟨husername, hpassword, hhost, port, hport, heq⟩ := parseAuthority_eq_ok h
  refine ⟨?_, fun p hp => ?_, Host.normal_of_parse hform hhost, fun n hn => ?_⟩
  · rw [husername]
    exact Reserve.clean_write _ _
  · rw [hpassword, passwordOf] at hp
    split at hp
    · cases hp
      exact ⟨Reserve.clean_write _ _, Reserve.write_cons_ne_nil _ _⟩
    · cases hp
  · rw [heq] at hn
    split at hn
    · cases hn
    · next hdefault =>
      rw [hn] at hport hdefault
      exact ⟨lt_of_parsePort hport, Ne.symm hdefault⟩

/-! ## Characters of authorities -/

end Authority

theorem endsAuthority_eq_false_iff :
    endsAuthority .web c = false ↔ c ≠ '/' ∧ c ≠ '?' ∧ c ≠ '#' ∧ c ≠ '\\' := by
  have hspecial : SchemeKind.web.isSpecial = true := by decide
  simp [endsAuthority, hspecial, and_assoc]

theorem isHostChar_ne (h : isHostChar c = true) :
    0x20 < c.toNat ∧ endsAuthority .web c = false ∧ c ≠ '@' := by
  simp only [isHostChar, Bool.or_eq_true, beq_iff_eq] at h
  rcases h with ((h | rfl) | rfl) | rfl
  · simp only [isNameChar, Bool.and_eq_true, Bool.not_eq_true'] at h
    have hne : ∀ d, isForbidden d = true → c ≠ d := by
      rintro d hd rfl
      cases h.2.symm.trans hd
    have hblank : ¬c.toNat ≤ 0x20 := by
      intro hle
      simp [isForbidden, hle] at h
    exact ⟨Nat.lt_of_not_le hblank, endsAuthority_eq_false_iff.2 ⟨hne '/' (by decide),
      hne '?' (by decide), hne '#' (by decide), hne '\\' (by decide)⟩, hne '@' (by decide)⟩
  · decide
  · decide
  · decide

/-- Nothing that ends an authority stands in a user information. -/
theorem endsAuthority_of_clean {cs : List Char} (h : Reserve.userinfo.Clean cs) (hc : c ∈ cs) :
    endsAuthority .web c = false := by
  have hne : ∀ d, Reserve.userinfo.escapes d = true → c ≠ d := by
    rintro d hd rfl
    exact h.not_mem hd hc
  exact endsAuthority_eq_false_iff.2 ⟨hne '/' (by decide), hne '?' (by decide),
    hne '#' (by decide), hne '\\' (by decide)⟩

namespace Authority

theorem Normal.isHostChar_of_mem (h : a.Normal scheme) (hc : c ∈ a.host.render ++ a.portText) :
    isHostChar c = true := by
  rcases List.mem_append.1 hc with hc | hc
  · exact h.host.isHostChar_of_mem_render hc
  · rw [portText] at hc
    split at hc
    · cases hc
    · rcases List.mem_cons.1 hc with rfl | hc
      · decide
      · simp [isHostChar, isNameChar_of_mem_toDigits (by decide) (by decide) hc]

theorem Normal.of_mem_userinfo (h : a.Normal scheme) (hc : c ∈ a.userinfo) :
    0x20 < c.toNat ∧ endsAuthority .web c = false := by
  have hclean : ∀ {cs}, Reserve.userinfo.Clean cs → c ∈ cs →
      0x20 < c.toNat ∧ endsAuthority .web c = false := fun h hc =>
    ⟨h.blank_lt (by decide) c hc, endsAuthority_of_clean h hc⟩
  rcases List.mem_append.1 hc with hc | hc
  · exact hclean h.username hc
  · split at hc
    · cases hc
    · next p hp =>
      rcases List.mem_cons.1 hc with rfl | hc
      · decide
      · exact hclean (h.password p hp).1 hc

/-- What stands in the text of an authority neither ends it nor is blank. -/
theorem Normal.of_mem_render (h : a.Normal scheme) (hc : c ∈ a.render) :
    0x20 < c.toNat ∧ endsAuthority .web c = false := by
  rw [render_eq] at hc
  rcases List.mem_append.1 hc with hc | hc
  · split at hc
    · cases hc
    · rcases List.mem_append.1 hc with hc | hc
      · exact h.of_mem_userinfo hc
      · rw [List.mem_singleton.1 hc]
        decide
  · have hhost := isHostChar_ne (h.isHostChar_of_mem hc)
    exact ⟨hhost.1, hhost.2.1⟩

theorem Normal.render_ne_nil (h : a.Normal scheme) : a.render ≠ [] := by
  have hhost := h.host.render_ne_nil
  rw [render_eq]
  simp [hhost]

end Authority

/-! ## Reading the text of an authority -/

theorem splitUserinfo_of_not_mem (h : '@' ∉ text) : splitUserinfo text = (none, text) := by
  rw [splitUserinfo, if_neg (by simpa using h)]

theorem splitUserinfo_append (userinfo : List Char) (h : '@' ∉ text) :
    splitUserinfo (userinfo ++ '@' :: text) = (some userinfo, text) := by
  have hhost : (userinfo ++ '@' :: text).reverse.takeWhile (· != '@') = text.reverse := by
    rw [List.reverse_append, List.reverse_cons, List.append_assoc,
      List.takeWhile_append_of_pos fun c hc => ?_]
    · simp
    · simp only [List.mem_reverse] at hc
      simp only [bne_iff_ne]
      rintro rfl
      exact h hc
  rw [splitUserinfo, if_pos (by simp)]
  have hlen : (userinfo ++ '@' :: text).length - text.length - 1 = userinfo.length := by
    rw [List.length_append, List.length_cons]
    omega
  simp only [hhost, List.reverse_reverse, hlen, List.take_left']

theorem splitHost_append {cs : List Char} (h : ∀ c ∈ cs, c ≠ ':' ∧ c ≠ '[') (rest : List Char) :
    splitHost false (cs ++ rest) = (cs ++ (splitHost false rest).1, (splitHost false rest).2) := by
  induction cs with
  | nil => rfl
  | cons c cs ih =>
    have hc := h c List.mem_cons_self
    rw [List.cons_append, splitHost, if_neg (fun hcolon => hc.1 hcolon.1)]
    simp [hc.2, ih fun d hd => h d (List.mem_cons_of_mem c hd)]

theorem splitHost_bracket {cs : List Char} (h : ']' ∉ cs) (rest : List Char) :
    splitHost true (cs ++ ']' :: rest) =
      (cs ++ ']' :: (splitHost false rest).1, (splitHost false rest).2) := by
  induction cs with
  | nil => rfl
  | cons c cs ih =>
    rw [List.mem_cons, not_or] at h
    rw [List.cons_append, splitHost, if_neg (by simp)]
    simp [Ne.symm h.1, ih h.2]

namespace Authority

/-- The text of a host is cut where the port number starts. -/
theorem Normal.splitHost_render (h : a.Normal scheme) :
    splitHost false (a.host.render ++ a.portText) = (a.host.render, a.portText) := by
  have hport : splitHost false a.portText = ([], a.portText) := by
    rw [portText]
    split
    · rfl
    · rw [splitHost, if_pos ⟨rfl, rfl⟩]
  have hname : ∀ {name}, IsName name → ∀ c ∈ name, c ≠ ':' ∧ c ≠ '[' := fun hname c hc => by
    have hc := hname c hc
    constructor <;> rintro rfl <;> exact absurd hc (by decide)
  have hhost := h.host
  cases heq : a.host with
  | empty =>
    rw [heq] at hhost
    exact hhost.elim
  | domain name =>
    rw [heq] at hhost
    rw [Host.render, splitHost_append (hname hhost.1), hport, List.append_nil]
  | ipv4 n =>
    rw [Host.render, splitHost_append (hname (isName_renderIpv4 n)), hport, List.append_nil]
  | ipv6 groups =>
    have hclose : ']' ∉ renderIpv6 groups := fun hmem => by
      rcases of_mem_renderIpv6 hmem with hc | hc
      · exact absurd hc (by decide)
      · exact absurd hc (by decide)
    have hrest := splitHost_bracket hclose a.portText
    rw [hport] at hrest
    rw [Host.render, List.cons_append, List.append_assoc, List.singleton_append, splitHost,
      if_neg (by simp)]
    simp [hrest]

theorem parsePort_portText {port : Option Nat}
    (h : parsePort (a.portText.drop 1) = .ok port) : port = a.portNumber := by
  cases hn : a.portNumber with
  | none =>
    rw [portText, hn] at h
    cases h
    rfl
  | some n =>
    have hdigits : (Nat.toDigits 10 n).all Char.isDigit = true :=
      List.all_eq_true.2 fun c hc => Nat.isDigit_of_mem_toDigits (by decide) (by decide) hc
    have hempty : (Nat.toDigits 10 n).isEmpty = false := by
      simp [List.isEmpty_eq_false_iff]
    have hvalue : numberIn? 10 (Nat.toDigits 10 n) = some n :=
      numberIn?_toDigits (by decide) (by decide) n
    simp only [portText, hn, List.drop_succ_cons, List.drop_zero, parsePort, hdigits, hempty,
      hvalue, if_true, Bool.false_eq_true, if_false] at h
    split at h
    · cases h
      rfl
    · cases h

theorem Normal.ne_colon (h : a.Normal scheme) : ∀ c ∈ a.username, (c != ':') = true := by
  intro c hc
  simp only [bne_iff_ne]
  rintro rfl
  exact h.username.not_mem (by decide) hc

theorem Normal.takeWhile_userinfo (h : a.Normal scheme) :
    a.userinfo.takeWhile (· != ':') = a.username := by
  rw [userinfo, List.takeWhile_append_of_pos h.ne_colon]
  cases a.password <;> simp

theorem Normal.passwordOf_userinfo (h : a.Normal scheme) :
    passwordOf a.userinfo = a.password := by
  rw [passwordOf, userinfo, List.dropWhile_append_of_pos h.ne_colon]
  cases hp : a.password with
  | none => rfl
  | some p =>
    obtain ⟨hclean, hne⟩ := h.password p hp
    obtain ⟨c, p, rfl⟩ := List.exists_cons_of_ne_nil hne
    simp [Reserve.write_of_clean hclean]

/-- The text of an authority is cut where its user information ends. -/
theorem Normal.splitUserinfo_render (h : a.Normal scheme) : ((splitUserinfo a.render).1.getD [],
    (splitUserinfo a.render).2) = (a.userinfo, a.host.render ++ a.portText) := by
  have hmark : '@' ∉ a.host.render ++ a.portText := fun hmem =>
    (isHostChar_ne (h.isHostChar_of_mem hmem)).2.2 rfl
  rw [render_eq]
  split
  · next hnil =>
    rw [List.nil_append, splitUserinfo_of_not_mem hmark, List.isEmpty_iff.1 hnil]
    rfl
  · rw [List.append_assoc, List.singleton_append, splitUserinfo_append _ hmark]
    rfl

/-- The text of an authority in normal form stands for no other authority. -/
theorem Normal.eq_of_parse_render (hform : form.Lawful) (hnormal : a.Normal scheme)
    (h : parseAuthority form scheme .web a.render atEnd = .ok a') : a' = a := by
  obtain ⟨husername, hpassword, hhost, port, hport, hnumber⟩ := parseAuthority_eq_ok h
  obtain ⟨huserinfo, hrest⟩ := Prod.mk.inj hnormal.splitUserinfo_render
  rw [huserinfo, hnormal.takeWhile_userinfo, Reserve.write_of_clean hnormal.username] at husername
  rw [huserinfo, hnormal.passwordOf_userinfo] at hpassword
  rw [hrest, hnormal.splitHost_render] at hhost hport
  rw [parsePort_portText hport] at hnumber
  have hport' : a'.portNumber = a.portNumber := by
    rw [hnumber]
    split
    · next hdefault =>
      cases hn : a.portNumber with
      | none => rfl
      | some n => exact absurd (hdefault ▸ hn) (hnormal.port n hn).2
    · rfl
  have hhost' := hnormal.host.eq_of_parse_render hform hhost
  cases a
  cases a'
  simp_all

end Authority

end Courier.Url
