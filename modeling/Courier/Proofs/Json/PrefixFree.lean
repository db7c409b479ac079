import Courier.Proofs.Decimal.Numeral
import Courier.Proofs.Json.Order
import Courier.Proofs.Json.Scan

/-!
# No text of a value is the start of another

A text that starts with that of a value starts with that of no other
(`Value.render_append_inj`). The first character tells the kind of the value; then a string
literal ends with the first quote that is not escaped (`renderText_append_inj`), a number with
the last of its characters (`number_append_inj`), a list or an object with its bracket. Hence
values with one text are equal (`Value.toText_injective`), if their numbers are finite : those
that are not are all written alike.
-/

namespace Courier.Json

variable {c d : Char} {cs ds r s : List Char}

/-! ## Strings -/

/-- The character that a literal goes on with, and the rest; none at its end. -/
def unescape? : List Char → Option (Char × List Char)
  | '\\' :: 'u' :: _ :: _ :: h :: l :: rest =>
    match Text.hexDigit? h, Text.hexDigit? l with
    | some h, some l => some (Char.ofNat (16 * h + l), rest)
    | _, _ => none
  | '\\' :: 'b' :: rest => some ('\x08', rest)
  | '\\' :: 'f' :: rest => some ('\x0c', rest)
  | '\\' :: 'n' :: rest => some ('\n', rest)
  | '\\' :: 'r' :: rest => some ('\r', rest)
  | '\\' :: 't' :: rest => some ('\t', rest)
  | '\\' :: c :: rest => some (c, rest)
  | '"' :: _ => none
  | c :: rest => some (c, rest)
  | [] => none

theorem unescape?_plain (hq : c ≠ '"') (hb : c ≠ '\\') : unescape? (c :: r) = some (c, r) := by
  unfold unescape?
  split <;> simp_all

/-- A character is read back from its written form, whatever follows. -/
theorem unescape?_escapeChar (c : Char) (r : List Char) :
    unescape? (escapeChar c ++ r) = some (c, r) := by
  unfold escapeChar
  split
  · rfl
  · rfl
  · rfl
  · rfl
  · rfl
  · rfl
  · rfl
  · next hq hb _ _ _ _ _ =>
    split
    · next hc =>
      have hvalue : 16 * (c.toNat / 16) + c.toNat % 16 = c.toNat := by omega
      simp only [List.cons_append, List.nil_append, unescape?,
        Scan.hexDigit?_digitChar (c.toNat / 16) (by omega),
        Scan.hexDigit?_digitChar (c.toNat % 16) (by omega), hvalue, Char.ofNat_toNat]
    · exact unescape?_plain hq hb

theorem escaped_append_inj : ∀ {cs ds : List Char},
    cs.flatMap escapeChar ++ '"' :: r = ds.flatMap escapeChar ++ '"' :: s → cs = ds ∧ r = s
  | [], [], h => ⟨rfl, (List.cons.inj h).2⟩
  | [], d :: ds, h => by
    have hd := congrArg unescape? h
    rw [List.flatMap_cons, List.append_assoc, unescape?_escapeChar] at hd
    cases hd
  | c :: cs, [], h => by
    have hc := congrArg unescape? h
    rw [List.flatMap_cons, List.append_assoc, unescape?_escapeChar] at hc
    cases hc
  | c :: cs, d :: ds, h => by
    have hcd := congrArg unescape? h
    rw [List.flatMap_cons, List.flatMap_cons, List.append_assoc, List.append_assoc,
      unescape?_escapeChar, unescape?_escapeChar] at hcd
    obtain ⟨rfl, hrest⟩ := Prod.mk.inj (Option.some.inj hcd)
    obtain ⟨rfl, rfl⟩ := escaped_append_inj hrest
    exact ⟨rfl, rfl⟩

/-- The literal of a text ends where it does whatever follows. -/
theorem renderText_append_inj {k l : String} (h : renderText k ++ r = renderText l ++ s) :
    k = l ∧ r = s := by
  unfold renderText at h
  simp only [List.cons_append, List.append_assoc, List.nil_append] at h
  obtain ⟨hk, hr⟩ := escaped_append_inj (List.cons.inj h).2
  exact ⟨String.toList_injective hk, hr⟩

/-! ## Numbers -/

open Double (isNumeral digits_toDigits)

theorem mem_renderInt {i : Int} (h : c ∈ renderInt i) : c = '-' ∨ c.isDigit = true := by
  unfold renderInt at h
  split at h
  · exact (List.mem_cons.1 h).imp_right (digits_toDigits _ c)
  · exact .inr (digits_toDigits _ c h)

theorem renderInt_injective {i j : Int} (h : renderInt i = renderInt j) : i = j := by
  -- The sign is no digit, so that both have it or none has.
  have hsign (m n : Nat) : '-' :: Nat.toDigits 10 m ≠ Nat.toDigits 10 n := fun heq =>
    (digits_toDigits n).ne (heq ▸ List.mem_cons_self) rfl rfl
  unfold renderInt at h
  split at h <;> split at h
  · have := Double.toDigits_injective (List.cons.inj h).2
    omega
  · exact absurd h (hsign _ _)
  · exact absurd h.symm (hsign _ _)
  · have := Double.toDigits_injective h
    omega

namespace Number

variable {m n : Number}

open Value (Finite)

theorem render_double {d : Double} (h : d.isFinite = true) : (double d).render = d.render :=
  if_pos h

theorem isNumeral_of_mem_render (h : (Value.num n).Finite) (hc : c ∈ n.render) :
    isNumeral c = true := by
  cases n with
  | int i =>
    rcases mem_renderInt hc with rfl | hc
    · rfl
    · simp [isNumeral, hc]
  | double d =>
    rw [render_double h] at hc
    exact Double.isNumeral_of_mem_render h hc

theorem render_ne_nil (h : (Value.num n).Finite) : n.render ≠ [] := by
  cases n with
  | int i =>
    show renderInt i ≠ []
    unfold renderInt
    split
    · exact List.cons_ne_nil _ _
    · exact Nat.toDigits_ne_nil
  | double d =>
    rw [render_double h]
    rcases Double.mark_mem_render h with hm | hm <;> exact List.ne_nil_of_mem hm

/-- No integer is written as a floating point number is. -/
theorem renderInt_ne_render {i : Int} {d : Double} (h : d.isFinite = true) :
    renderInt i ≠ d.render := by
  intro heq
  rcases Double.mark_mem_render h with hm | hm <;> rw [← heq] at hm <;>
    rcases mem_renderInt hm with hc | hc <;> cases hc

theorem render_injective (h : (Value.num n).Finite) (h' : (Value.num m).Finite)
    (heq : n.render = m.render) : n = m := by
  cases n with
  | int i =>
    cases m with
    | int j => rw [renderInt_injective heq]
    | double d =>
      rw [render_double h'] at heq
      exact absurd heq (renderInt_ne_render h')
  | double d =>
    cases m with
    | int j =>
      rw [render_double h] at heq
      exact absurd heq.symm (renderInt_ne_render h)
    | double d' =>
      rw [render_double h, render_double h'] at heq
      rw [Double.render_injective h h' heq]

end Number

/-- The text does not start with a character of a number. -/
def NoNumeral (r : List Char) : Prop :=
  ∀ c ∈ r.head?, isNumeral c = false

/-- A number ends where its characters do. -/
theorem span_numeral (hcs : ∀ c ∈ cs, isNumeral c = true) (hr : NoNumeral r) :
    (cs ++ r).takeWhile isNumeral = cs ∧ (cs ++ r).dropWhile isNumeral = r := by
  rw [List.takeWhile_append_of_pos hcs, List.dropWhile_append_of_pos hcs]
  cases r with
  | nil => simp
  | cons c r =>
    have hc : ¬isNumeral c = true := by simp [hr c rfl]
    simp [hc]

theorem number_append_inj {m n : Number} (h : (Value.num n).Finite) (h' : (Value.num m).Finite)
    (hr : NoNumeral r) (hs : NoNumeral s) (heq : n.render ++ r = m.render ++ s) :
    n = m ∧ r = s := by
  obtain ⟨htake, hdrop⟩ := span_numeral (fun _ => n.isNumeral_of_mem_render h) hr
  obtain ⟨htake', hdrop'⟩ := span_numeral (fun _ => m.isNumeral_of_mem_render h') hs
  rw [heq] at htake hdrop
  exact ⟨Number.render_injective h h' (htake.symm.trans htake'), hdrop.symm.trans hdrop'⟩

/-! ## Values -/

namespace Value

variable {v w : Value}

/-- The first character that the text of a value may have. -/
def Starts (c : Char) : Value → Prop
  | .null => c = 'n'
  | .bool true => c = 't'
  | .bool false => c = 'f'
  | .num _ => isNumeral c = true
  | .str _ => c = '"'
  | .arr _ => c = '['
  | .obj _ => c = '\x7b'

/-- Values that differ in their contents at most. -/
inductive SameKind : Value → Value → Prop
  | null : SameKind .null .null
  | bool (b : Bool) : SameKind (.bool b) (.bool b)
  | num (m n : Number) : SameKind (.num m) (.num n)
  | str (k l : String) : SameKind (.str k) (.str l)
  | arr (vs ws : List Value) : SameKind (.arr vs) (.arr ws)
  | obj (ms ns : List (String × Value)) : SameKind (.obj ms) (.obj ns)

theorem exists_starts (h : v.Finite) : ∃ c rest, v.render = c :: rest ∧ v.Starts c := by
  cases v with
  | null => exact ⟨'n', _, rfl, rfl⟩
  | bool b => cases b <;> exact ⟨_, _, rfl, rfl⟩
  | num n =>
    obtain ⟨c, rest, hn⟩ := List.exists_cons_of_ne_nil (Number.render_ne_nil h)
    exact ⟨c, rest, hn, Number.isNumeral_of_mem_render h (hn ▸ List.mem_cons_self)⟩
  | str k => exact ⟨_, _, rfl, rfl⟩
  | arr vs => cases vs <;> exact ⟨_, _, rfl, rfl⟩
  | obj ms => cases ms <;> exact ⟨_, _, rfl, rfl⟩

/-- The first character tells the kind. -/
theorem SameKind.of_starts (h : v.Starts c) (h' : w.Starts c) : SameKind v w := by
  unfold Starts at h h'
  -- Of two kinds at least one has a character of its own, which the other does not have.
  split at h <;> split at h' <;> first | constructor | (subst h; cases h') | (subst h'; cases h)

theorem SameKind.of_append_eq (hv : v.Finite) (hw : w.Finite)
    (h : v.render ++ r = w.render ++ s) : SameKind v w := by
  obtain ⟨c, rest, hc, hstart⟩ := exists_starts hv
  obtain ⟨c', rest', hc', hstart'⟩ := exists_starts hw
  rw [hc, hc'] at h
  obtain ⟨rfl, -⟩ := List.cons.inj h
  exact .of_starts hstart hstart'

/-- No value stands where an array ends. -/
theorem render_append_ne (hv : v.Finite) : v.render ++ r ≠ ']' :: s := by
  obtain ⟨c, rest, hr, hstart⟩ := exists_starts hv
  rw [hr]
  intro h
  obtain ⟨rfl, -⟩ := List.cons.inj h
  unfold Starts at hstart
  split at hstart <;> cases hstart

theorem noNumeral_cons (hc : isNumeral c = false) (r : List Char) : NoNumeral (c :: r) := by
  rintro c' hc'
  obtain rfl := Option.some.inj hc'
  exact hc

theorem noNumeral_renderItems (vs : List Value) (r : List Char) :
    NoNumeral (renderItems vs ++ r) := by
  cases vs <;> exact noNumeral_cons rfl _

theorem noNumeral_renderMembers (ms : List (String × Value)) (r : List Char) :
    NoNumeral (renderMembers ms ++ r) := by
  cases ms <;> exact noNumeral_cons rfl _

/-- The items of an array are written as those that come after a first one, but for the first
character. -/
theorem renderItems_of_arr {vs ws : List Value} (hv : (arr vs).Finite) (hw : (arr ws).Finite)
    (h : (arr vs).render ++ r = (arr ws).render ++ s) :
    renderItems vs ++ r = renderItems ws ++ s := by
  cases vs with
  | nil =>
    cases ws with
    | nil => exact (List.cons.inj h).2
    | cons w ws =>
      simp only [render, List.cons_append, List.append_assoc] at h
      exact absurd (List.cons.inj h).2.symm (render_append_ne hw.1)
  | cons v vs =>
    cases ws with
    | nil =>
      simp only [render, List.cons_append, List.append_assoc] at h
      exact absurd (List.cons.inj h).2 (render_append_ne hv.1)
    | cons w ws => exact congrArg (List.cons ',') (List.cons.inj h).2

/-- So are the members of an object. -/
theorem renderMembers_of_obj {ms ns : List (String × Value)}
    (h : (obj ms).render ++ r = (obj ns).render ++ s) :
    renderMembers ms ++ r = renderMembers ns ++ s := by
  cases ms with
  | nil =>
    cases ns with
    | nil => exact (List.cons.inj h).2
    | cons n ns => cases (List.cons.inj (List.cons.inj h).2).1
  | cons m ms =>
    cases ns with
    | nil => cases (List.cons.inj (List.cons.inj h).2).1
    | cons n ns => exact congrArg (List.cons ',') (List.cons.inj h).2

mutual

/-- A text settles the value it starts with and what follows, unless that goes on with a
numeral. -/
theorem render_append_inj : ∀ {v w : Value} {r s : List Char}, v.Finite → w.Finite →
    NoNumeral r → NoNumeral s → v.render ++ r = w.render ++ s → v = w ∧ r = s
  | .null, w, r, s, hv, hw, _, _, h => by
    cases SameKind.of_append_eq hv hw h
    exact ⟨rfl, List.append_cancel_left h⟩
  | .bool b, w, r, s, hv, hw, _, _, h => by
    cases SameKind.of_append_eq hv hw h
    exact ⟨rfl, List.append_cancel_left h⟩
  | .num m, w, r, s, hv, hw, hr, hs, h => by
    cases SameKind.of_append_eq hv hw h
    obtain ⟨rfl, rfl⟩ := number_append_inj hv hw hr hs h
    exact ⟨rfl, rfl⟩
  | .str k, w, r, s, hv, hw, _, _, h => by
    cases SameKind.of_append_eq hv hw h
    obtain ⟨rfl, rfl⟩ := renderText_append_inj h
    exact ⟨rfl, rfl⟩
  | .arr vs, w, r, s, hv, hw, _, _, h => by
    cases SameKind.of_append_eq hv hw h
    obtain ⟨rfl, rfl⟩ := renderItems_append_inj hv hw (renderItems_of_arr hv hw h)
    exact ⟨rfl, rfl⟩
  | .obj ms, w, r, s, hv, hw, _, _, h => by
    cases SameKind.of_append_eq hv hw h
    obtain ⟨rfl, rfl⟩ := renderMembers_append_inj hv hw (renderMembers_of_obj h)
    exact ⟨rfl, rfl⟩

theorem renderItems_append_inj : ∀ {vs ws : List Value} {r s : List Char}, FiniteItems vs →
    FiniteItems ws → renderItems vs ++ r = renderItems ws ++ s → vs = ws ∧ r = s
  | [], [], _, _, _, _, h => ⟨rfl, List.append_cancel_left h⟩
  | [], _ :: _, _, _, _, _, h => nomatch (List.cons.inj h).1
  | _ :: _, [], _, _, _, _, h => nomatch (List.cons.inj h).1
  | v :: vs, w :: ws, r, s, hv, hw, h => by
    simp only [renderItems, List.cons_append, List.append_assoc] at h
    obtain ⟨rfl, hrest⟩ := render_append_inj hv.1 hw.1 (noNumeral_renderItems _ _)
      (noNumeral_renderItems _ _) (List.cons.inj h).2
    obtain ⟨rfl, rfl⟩ := renderItems_append_inj hv.2 hw.2 hrest
    exact ⟨rfl, rfl⟩

theorem renderMembers_append_inj : ∀ {ms ns : List (String × Value)} {r s : List Char},
    FiniteMembers ms → FiniteMembers ns → renderMembers ms ++ r = renderMembers ns ++ s →
    ms = ns ∧ r = s
  | [], [], _, _, _, _, h => ⟨rfl, List.append_cancel_left h⟩
  | [], _ :: _, _, _, _, _, h => nomatch (List.cons.inj h).1
  | _ :: _, [], _, _, _, _, h => nomatch (List.cons.inj h).1
  | (k, v) :: ms, (l, w) :: ns, r, s, hv, hw, h => by
    simp only [renderMembers, List.cons_append, List.append_assoc] at h
    obtain ⟨rfl, hvalue⟩ := renderText_append_inj (List.cons.inj h).2
    obtain ⟨rfl, hrest⟩ := render_append_inj hv.1 hw.1 (noNumeral_renderMembers _ _)
      (noNumeral_renderMembers _ _) (List.cons.inj hvalue).2
    obtain ⟨rfl, rfl⟩ := renderMembers_append_inj hv.2 hw.2 hrest
    exact ⟨rfl, rfl⟩

end

/-- Finite values with one text are equal. -/
theorem toText_injective (hv : v.Finite) (hw : w.Finite) (h : v.toText = w.toText) : v = w := by
  have hr : v.render = w.render := String.ofList_injective h
  refine (render_append_inj hv hw (r := []) (s := []) ?_ ?_ (by rw [hr])).1 <;> simp [NoNumeral]

end Value

end Courier.Json
