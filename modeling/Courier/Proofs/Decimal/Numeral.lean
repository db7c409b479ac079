import Courier.Proofs.Decimal.Shortest
import Mathlib.Data.List.TakeWhile

/-!
# The text of a number determines it

What a layout writes is a numeral of the decimal it was given (`numeral_render`), and
`decimalValue` reads a numeral exactly, so that it has one value (`Numeral.value_eq`). The
decimal of a number rounds to no other magnitude, hence finite numbers with one text are equal
(`render_injective`). A text has only characters of numerals (`isNumeral_of_mem_render`) and
is no integer's (`mark_mem_render`).
-/

namespace Courier.Double

/-! ## Reading a decimal text -/

/-- The value of digits with a point among them, or none. -/
def fixedValue (cs : List Char) : ℚ :=
  let whole := cs.takeWhile (· ≠ '.')
  let fraction := (cs.dropWhile (· ≠ '.')).drop 1
  Nat.ofDigitChars 10 (whole ++ fraction) 0 * 10 ^ (-fraction.length : Int)

/-- The exponent that a letter and a sign start; none counts as zero. -/
def exponentValue : List Char → Int
  | _ :: '-' :: ds => -Nat.ofDigitChars 10 ds 0
  | _ :: _ :: ds => Nat.ofDigitChars 10 ds 0
  | _ => 0

/-- The value of a decimal text. -/
def decimalValue (cs : List Char) : ℚ :=
  fixedValue (cs.takeWhile (· ≠ 'e')) * 10 ^ exponentValue (cs.dropWhile (· ≠ 'e'))

variable {cs ds whole fraction : List Char}

/-- The text has digits only. -/
def Digits (cs : List Char) : Prop :=
  ∀ c ∈ cs, c.isDigit = true

theorem digits_toDigits (n : Nat) : Digits (Nat.toDigits 10 n) := fun _ h =>
  Nat.isDigit_of_mem_toDigits (by norm_num) le_rfl h

/-- Numbers with the same digits are equal. -/
theorem toDigits_injective {m n : Nat} (h : Nat.toDigits 10 m = Nat.toDigits 10 n) : m = n := by
  rw [← Nat.ofDigitChars_ten_toDigits (n := m), h, Nat.ofDigitChars_ten_toDigits]

theorem Digits.append (h : Digits cs) (h' : Digits ds) : Digits (cs ++ ds) := fun c hc =>
  (List.mem_append.1 hc).elim (h c) (h' c)

theorem Digits.take (h : Digits cs) (k : Nat) : Digits (cs.take k) := fun c hc =>
  h c (List.mem_of_mem_take hc)

theorem Digits.drop (h : Digits cs) (k : Nat) : Digits (cs.drop k) := fun c hc =>
  h c (List.mem_of_mem_drop hc)

theorem digits_zeros (k : Nat) : Digits (List.replicate k '0') := by
  intro c hc
  rw [List.eq_of_mem_replicate hc]
  rfl

/-- Digits are no marks. -/
theorem Digits.ne {c m : Char} (h : Digits cs) (hc : c ∈ cs) (hm : m.isDigit = false) : c ≠ m := by
  rintro rfl
  rw [h c hc] at hm
  cases hm

theorem fixedValue_point (h : Digits whole) : fixedValue (whole ++ '.' :: fraction) =
    Nat.ofDigitChars 10 (whole ++ fraction) 0 * 10 ^ (-fraction.length : Int) := by
  have hne : ∀ c ∈ whole, decide (c ≠ '.') = true := fun c hc => decide_eq_true (h.ne hc rfl)
  unfold fixedValue
  rw [List.takeWhile_append_of_pos hne, List.dropWhile_append_of_pos hne]
  simp

theorem fixedValue_digits (h : Digits whole) : fixedValue whole = Nat.ofDigitChars 10 whole 0 := by
  have hne : ∀ c ∈ whole, decide (c ≠ '.') = true := fun c hc => decide_eq_true (h.ne hc rfl)
  unfold fixedValue
  rw [List.takeWhile_eq_self_iff.2 hne, List.dropWhile_eq_nil_iff.2 hne]
  simp

/-- Without an exponent the value is that of the digits. -/
theorem decimalValue_fixed (h : 'e' ∉ cs) : decimalValue cs = fixedValue cs := by
  have hne : ∀ c ∈ cs, decide (c ≠ 'e') = true := fun c hc =>
    decide_eq_true fun he => h (he ▸ hc)
  unfold decimalValue
  rw [List.takeWhile_eq_self_iff.2 hne, List.dropWhile_eq_nil_iff.2 hne, exponentValue, zpow_zero,
    mul_one]
  · simp
  · simp

theorem decimalValue_exponent (h : 'e' ∉ cs) (e : Int) :
    decimalValue (cs ++ 'e' :: (if e < 0 then '-' else '+') :: Nat.toDigits 10 e.natAbs) =
      fixedValue cs * 10 ^ e := by
  have hne : ∀ c ∈ cs, decide (c ≠ 'e') = true := fun c hc =>
    decide_eq_true fun he => h (he ▸ hc)
  have hexp :
      exponentValue ('e' :: (if e < 0 then '-' else '+') :: Nat.toDigits 10 e.natAbs) = e := by
    split
    · rw [exponentValue, Nat.ofDigitChars_ten_toDigits]
      omega
    · rw [exponentValue, Nat.ofDigitChars_ten_toDigits]
      · omega
      · simp
  unfold decimalValue
  rw [List.takeWhile_append_of_pos hne, List.dropWhile_append_of_pos hne,
    List.takeWhile_cons_of_neg (by simp), List.dropWhile_cons_of_neg (by simp), List.append_nil,
    hexp]

/-! ## What a layout writes -/

/-- Digits, with or without a point after the first of them, and their value. -/
inductive Mantissa : List Char → ℚ → Prop
  | whole {cs : List Char} : Digits cs → cs ≠ [] → Mantissa cs (Nat.ofDigitChars 10 cs 0)
  | point {whole fraction : List Char} : Digits whole → whole ≠ [] → Digits fraction →
      Mantissa (whole ++ '.' :: fraction)
        (Nat.ofDigitChars 10 (whole ++ fraction) 0 * 10 ^ (-fraction.length : Int))

/-- The text of a number that is no integer's, and its value : a point is in it, or an
exponent. -/
inductive Numeral : List Char → ℚ → Prop
  | fixed {cs : List Char} {x : ℚ} : Mantissa cs x → '.' ∈ cs → Numeral cs x
  | exponent {cs : List Char} {x : ℚ} (e : Int) : Mantissa cs x →
      Numeral (cs ++ 'e' :: (if e < 0 then '-' else '+') :: Nat.toDigits 10 e.natAbs) (x * 10 ^ e)

variable {x y : ℚ}

theorem Mantissa.fixedValue_eq (h : Mantissa cs x) : fixedValue cs = x := by
  cases h with
  | whole h _ => exact fixedValue_digits h
  | point h _ _ => exact fixedValue_point h

theorem Mantissa.no_letter (h : Mantissa cs x) : 'e' ∉ cs := by
  cases h with
  | whole h _ => exact fun he => h.ne he rfl rfl
  | point h _ h' =>
    intro he
    rcases List.mem_append.1 he with he | he
    · exact h.ne he rfl rfl
    · rcases List.mem_cons.1 he with he | he
      · cases he
      · exact h'.ne he rfl rfl

theorem Numeral.decimalValue_eq (h : Numeral cs x) : decimalValue cs = x := by
  cases h with
  | fixed h _ => rw [decimalValue_fixed h.no_letter, h.fixedValue_eq]
  | exponent e h => rw [decimalValue_exponent h.no_letter, h.fixedValue_eq]

/-- The value of a text is settled by it. -/
theorem Numeral.value_eq (h : Numeral cs x) (h' : Numeral cs y) : x = y :=
  h.decimalValue_eq.symm.trans h'.decimalValue_eq

theorem Numeral.of_point (h : Digits whole) (hne : whole ≠ []) (h' : Digits fraction)
    (hx : Nat.ofDigitChars 10 (whole ++ fraction) 0 * 10 ^ (-fraction.length : Int) = x) :
    Numeral (whole ++ '.' :: fraction) x := by
  rw [← hx]
  exact .fixed (.point h hne h') (by simp)

section Layouts

variable (hds : Digits ds)
include hds

/-- All digits and some zeros before the point. -/
theorem numeral_zeros (hne : ds ≠ []) (k : Nat) :
    Numeral (ds ++ List.replicate k '0' ++ ['.', '0']) (Nat.ofDigitChars 10 ds 0 * 10 ^ k) := by
  have hvalue : Nat.ofDigitChars 10 ((ds ++ List.replicate k '0') ++ ['0']) 0 =
      10 ^ k * Nat.ofDigitChars 10 ds 0 * 10 := by
    rw [Nat.ofDigitChars_append, Nat.ofDigitChars_append, Nat.ofDigitChars_replicate_zero,
      Nat.ofDigitChars_cons]
    exact Nat.mul_comm _ _
  refine .of_point (hds.append (digits_zeros _)) (by simp [hne]) (digits_zeros 1) ?_
  rw [hvalue, List.length_singleton, Nat.cast_one, zpow_neg_one]
  push_cast
  rw [mul_inv_cancel_right₀ (by norm_num), mul_comm]

/-- The point among the digits. -/
theorem numeral_inner (hne : ds ≠ []) (k : Nat) :
    Numeral (ds.take (k + 1) ++ '.' :: ds.drop (k + 1))
      (Nat.ofDigitChars 10 ds 0 * 10 ^ (-(ds.length - (k + 1) : Nat) : Int)) := by
  refine .of_point (hds.take _) (by simpa using hne) (hds.drop _) ?_
  rw [List.take_append_drop, List.length_drop]

/-- All digits and some zeros after the point. -/
theorem numeral_small (k : Nat) : Numeral ('0' :: '.' :: (List.replicate k '0' ++ ds))
    (Nat.ofDigitChars 10 ds 0 * 10 ^ (-(k + ds.length : Nat) : Int)) := by
  have hvalue : Nat.ofDigitChars 10 (['0'] ++ (List.replicate k '0' ++ ds)) 0 =
      Nat.ofDigitChars 10 ds 0 := by
    rw [← List.append_assoc, Nat.ofDigitChars_append,
      show ['0'] ++ List.replicate k '0' = List.replicate (k + 1) '0' from rfl,
      Nat.ofDigitChars_replicate_zero, Nat.mul_zero]
  have h := Numeral.of_point (digits_zeros 1) (by simp) ((digits_zeros k).append hds) rfl
  rwa [List.replicate_one, hvalue, List.length_append, List.length_replicate] at h

/-- The point after the first digit, and an exponent. -/
theorem numeral_exponent (hne : ds ≠ []) (e : Int) :
    Numeral (ds.take 1 ++ (if ds.length = 1 then [] else '.' :: ds.drop 1) ++
        'e' :: (if e < 0 then '-' else '+') :: Nat.toDigits 10 e.natAbs)
      (Nat.ofDigitChars 10 ds 0 * 10 ^ (-(ds.length - 1 : Nat) : Int) * 10 ^ e) := by
  refine .exponent e ?_
  split
  · next hone =>
    rw [List.append_nil, ← hone, List.take_length, Nat.sub_self, Nat.cast_zero, neg_zero,
      zpow_zero, mul_one]
    exact .whole hds hne
  · have h := Mantissa.point (hds.take 1) (by simpa using hne) (hds.drop 1)
    rwa [List.take_append_drop, List.length_drop] at h

end Layouts

/-- A layout writes the decimal it is given. -/
theorem numeral_render (layout : Layout) (n : Nat) (p : Int) :
    Numeral (layout.render n p) (n * 10 ^ p) := by
  have hds := digits_toDigits n
  have hn := Nat.ofDigitChars_ten_toDigits (n := n)
  have hlen := Nat.length_toDigits_pos (b := 10) (n := n)
  unfold Layout.render
  dsimp only
  generalize Nat.toDigits 10 n = ds at *
  have hne : ds ≠ [] := List.ne_nil_of_length_pos hlen
  rw [← hn]
  split
  · split
    · next hp =>
      obtain ⟨k, rfl⟩ : ∃ k : Nat, p = k := ⟨p.toNat, by omega⟩
      rw [Int.toNat_natCast, zpow_natCast]
      exact numeral_zeros hds hne k
    · split
      · have h := numeral_inner hds hne (p + ds.length - 1).toNat
        rwa [show -((ds.length - ((p + ds.length - 1).toNat + 1) : Nat) : Int) = p by omega] at h
      · have h := numeral_small hds (-(p + ds.length - 1) - 1).toNat
        rwa [show -(((-(p + ds.length - 1) - 1).toNat + ds.length : Nat) : Int) = p by omega] at h
  · have h := numeral_exponent hds hne (p + ds.length - 1)
    rwa [mul_assoc, ← zpow_add₀ (by norm_num),
      show -((ds.length - 1 : Nat) : Int) + (p + ds.length - 1) = p by omega] at h

/-! ## The characters of a text -/

/-- The characters that numbers are written with. -/
def isNumeral (c : Char) : Bool :=
  c.isDigit || c == '-' || c == '+' || c == '.' || c == 'e'

theorem Digits.isNumeral {c : Char} (h : Digits cs) (hc : c ∈ cs) : isNumeral c = true := by
  simp [Double.isNumeral, h c hc]

theorem Mantissa.isNumeral {c : Char} (h : Mantissa cs x) (hc : c ∈ cs) :
    isNumeral c = true := by
  cases h with
  | whole h _ => exact h.isNumeral hc
  | point h _ h' =>
    rcases List.mem_append.1 hc with hc | hc
    · exact h.isNumeral hc
    · rcases List.mem_cons.1 hc with rfl | hc
      · rfl
      · exact h'.isNumeral hc

theorem Numeral.isNumeral {c : Char} (h : Numeral cs x) (hc : c ∈ cs) : isNumeral c = true := by
  cases h with
  | fixed h _ => exact h.isNumeral hc
  | exponent e h =>
    rcases List.mem_append.1 hc with hc | hc
    · exact h.isNumeral hc
    · rcases List.mem_cons.1 hc with rfl | hc
      · rfl
      · rcases List.mem_cons.1 hc with rfl | hc
        · split <;> rfl
        · exact (digits_toDigits _).isNumeral hc

/-- A mark that integers do not have. -/
theorem Numeral.mark_mem (h : Numeral cs x) : '.' ∈ cs ∨ 'e' ∈ cs := by
  cases h with
  | fixed _ h => exact .inl h
  | exponent e h => exact .inr (by simp)

theorem Digits.head_isDigit (h : Digits cs) (hne : cs ≠ []) :
    ∃ c rest, cs = c :: rest ∧ c.isDigit = true := by
  obtain ⟨c, rest, rfl⟩ := List.exists_cons_of_ne_nil hne
  exact ⟨c, rest, rfl, h c List.mem_cons_self⟩

theorem Mantissa.head_isDigit (h : Mantissa cs x) :
    ∃ c rest, cs = c :: rest ∧ c.isDigit = true := by
  cases h with
  | whole h hne => exact h.head_isDigit hne
  | point h hne _ =>
    obtain ⟨c, rest, rfl, hc⟩ := h.head_isDigit hne
    exact ⟨c, _, rfl, hc⟩

theorem Numeral.head_isDigit (h : Numeral cs x) :
    ∃ c rest, cs = c :: rest ∧ c.isDigit = true := by
  cases h with
  | fixed h _ => exact h.head_isDigit
  | exponent e h =>
    obtain ⟨c, rest, rfl, hc⟩ := h.head_isDigit
    exact ⟨c, _, rfl, hc⟩

/-- No text starts with a sign. -/
theorem Numeral.ne_sign (h : Numeral cs x) : cs ≠ '-' :: ds := by
  obtain ⟨c, rest, rfl, hc⟩ := h.head_isDigit
  rintro heq
  obtain ⟨rfl, -⟩ := List.cons.inj heq
  cases hc

/-! ## The text of a number -/

variable {d d' : Double}

/-- The text of a finite number is that of a rational that rounds to it, after its sign. -/
theorem numeral_of_finite (h : d.isFinite = true) : ∃ body x, Numeral body x ∧ d.Rounds x ∧
    d.render = if d.isNegative then '-' :: body else body := by
  cases hz : d.isZero with
  | false =>
    refine ⟨_, _, numeral_render canonicalLayout d.shortest.1 d.shortest.2,
      shortest_rounds h hz, ?_⟩
    unfold render
    rw [hz]
    rfl
  | true =>
    refine ⟨_, _, numeral_render canonicalLayout 0 0, ?_, ?_⟩
    · have hm : d.significand = 0 := by
        have hzero : d.magnitude = 0 := by simpa [isZero] using hz
        unfold significand hiddenBit
        rw [hzero]
        rfl
      unfold Rounds low high
      simp [hm, d.quarter_pos.le]
    · unfold render
      rw [hz]
      rfl

/-- Finite numbers with one text are equal. -/
theorem render_injective (h : d.isFinite = true) (h' : d'.isFinite = true)
    (heq : d.render = d'.render) : d = d' := by
  obtain ⟨body, x, hbody, hx, hr⟩ := numeral_of_finite h
  obtain ⟨body', x', hbody', hx', hr'⟩ := numeral_of_finite h'
  rw [hr, hr'] at heq
  have hsame : d.isNegative = d'.isNegative ∧ body = body' := by
    cases hs : d.isNegative <;> cases hs' : d'.isNegative <;> simp only [hs, hs'] at heq
    · exact ⟨rfl, heq⟩
    · exact absurd heq hbody.ne_sign
    · exact absurd heq.symm hbody'.ne_sign
    · exact ⟨rfl, (List.cons.inj heq).2⟩
  obtain ⟨hsign, rfl⟩ := hsame
  -- One text has one value, which rounds to one magnitude.
  rw [hbody.value_eq hbody'] at hx
  exact eq_of_magnitude hsign (hx.magnitude_eq hx')

theorem isNumeral_of_mem_render {c : Char} (h : d.isFinite = true) (hc : c ∈ d.render) :
    isNumeral c = true := by
  obtain ⟨body, x, hbody, -, hr⟩ := numeral_of_finite h
  rw [hr] at hc
  split at hc
  · rcases List.mem_cons.1 hc with rfl | hc
    · rfl
    · exact hbody.isNumeral hc
  · exact hbody.isNumeral hc

theorem mark_mem_render (h : d.isFinite = true) : '.' ∈ d.render ∨ 'e' ∈ d.render := by
  obtain ⟨body, x, hbody, -, hr⟩ := numeral_of_finite h
  have hmark := hbody.mark_mem
  rw [hr]
  split
  · exact hmark.imp (List.mem_cons_of_mem _) (List.mem_cons_of_mem _)
  · exact hmark

end Courier.Double
