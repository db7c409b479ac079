import Courier.Decimal.Shortest
import Mathlib.Algebra.Order.Field.Power
import Mathlib.Tactic.Linarith
import Mathlib.Tactic.NormNum
import Mathlib.Tactic.Ring

/-!
# The interval of a number

A finite number is `m` units of `2 ^ q`, and the pattern of its magnitude counts these units
(`magnitude_eq`). The rationals that round to it (`Rounds`) lie half a unit to either side, a
quarter below a power of two, the ends included if `m` is even. Of two magnitudes the interval
of the smaller ends where that of the greater starts, or before (`high_le_low`), and where they
meet the ends belong to one of them at most. So no rational rounds to two magnitudes
(`Rounds.magnitude_eq`).
-/

namespace Courier.Double

variable {d d' : Double}

/-! ## Units -/

theorem exponent_ge (d : Double) : -1074 ≤ d.exponent := by
  unfold exponent
  omega

theorem exponent_le (h : d.isFinite = true) : d.exponent ≤ 971 := by
  have hlt : d.magnitude < infinityBits := by simpa [isFinite] using h
  unfold infinityBits at hlt
  unfold exponent hiddenBit
  omega

theorem significand_lt (d : Double) : d.significand < 2 * hiddenBit := by
  unfold significand hiddenBit
  split <;> omega

/-- Above the lowest exponent a significand has all its bits. -/
theorem hiddenBit_le (h : -1074 < d.exponent) : hiddenBit ≤ d.significand := by
  unfold exponent at h
  unfold significand
  have hge : ¬d.magnitude < hiddenBit := by
    unfold hiddenBit at h ⊢
    omega
  rw [if_neg hge]
  exact Nat.le_add_right _ _

/-- The pattern counts the magnitudes upwards. -/
theorem magnitude_eq (d : Double) :
    (d.magnitude : Int) = (d.exponent + 1074) * hiddenBit + d.significand := by
  unfold exponent significand hiddenBit
  split <;> omega

theorem significand_pos (h : d.isZero = false) : 0 < d.significand := by
  have hne : d.magnitude ≠ 0 := by simpa [isZero] using h
  unfold significand hiddenBit
  split <;> omega

/-- A number is its sign and its magnitude. -/
theorem eq_of_magnitude (hs : d.isNegative = d'.isNegative) (hm : d.magnitude = d'.magnitude) :
    d = d' := by
  obtain ⟨b⟩ := d
  obtain ⟨b'⟩ := d'
  have hb := b.toNat_lt
  have hb' := b'.toNat_lt
  have hsign : signBit ≤ b.toNat ↔ signBit ≤ b'.toNat := by simpa [isNegative] using hs
  have hrest : b.toNat % signBit = b'.toNat % signBit := hm
  unfold signBit at hsign hrest
  have hbits : b.toNat = b'.toNat := by omega
  rw [UInt64.toNat_inj.1 hbits]

/-! ## The interval -/

/-- A quarter of the unit. -/
def quarter (d : Double) : ℚ := 2 ^ (d.exponent - 2)

/-- How many quarters of the unit the interval reaches below the number. -/
def gap (d : Double) : Nat :=
  if d.significand = hiddenBit ∧ -1074 < d.exponent then 1 else 2

/-- The lower end of the interval. -/
def low (d : Double) : ℚ := ((4 * d.significand - d.gap : Nat) : ℚ) * d.quarter

/-- The upper end of the interval. -/
def high (d : Double) : ℚ := ((4 * d.significand + 2 : Nat) : ℚ) * d.quarter

/-- The rational rounds to the magnitude of the number. -/
def Rounds (d : Double) (x : ℚ) : Prop :=
  if d.significand % 2 = 0 then d.low ≤ x ∧ x ≤ d.high else d.low < x ∧ x < d.high

theorem quarter_pos (d : Double) : 0 < d.quarter :=
  zpow_pos (by norm_num) _

theorem Rounds.low_le {x : ℚ} (h : d.Rounds x) : d.low ≤ x := by
  unfold Rounds at h
  split at h
  · exact h.1
  · exact h.1.le

theorem Rounds.le_high {x : ℚ} (h : d.Rounds x) : x ≤ d.high := by
  unfold Rounds at h
  split at h
  · exact h.2
  · exact h.2.le

theorem gap_le (d : Double) : d.gap ≤ 2 := by
  unfold gap
  split <;> omega

/-- The parts of a smaller magnitude : fewer units, or smaller ones. -/
theorem lt_of_magnitude_lt (h : d.magnitude < d'.magnitude) :
    d.exponent < d'.exponent ∨ d.exponent = d'.exponent ∧ d.significand < d'.significand := by
  have hd := d.magnitude_eq
  have hd' := d'.magnitude_eq
  have hlt := d.significand_lt
  have hlt' := d'.significand_lt
  have hge := @hiddenBit_le d
  have hge' := d'.exponent_ge
  unfold hiddenBit at *
  omega

/-- A count of units in twice the count of units twice as great. -/
theorem mul_unit_le {a b : Nat} {u u' : ℚ} (hu : 0 < u) (hu' : 2 * u ≤ u') :
    (a ≤ 2 * b → (a : ℚ) * u ≤ b * u') ∧ (a < 2 * b → (a : ℚ) * u < b * u') := by
  have htwice : ((2 * b : Nat) : ℚ) * u ≤ b * u' := by
    calc ((2 * b : Nat) : ℚ) * u = b * (2 * u) := by push_cast; ring
      _ ≤ b * u' := mul_le_mul_of_nonneg_left hu' (Nat.cast_nonneg b)
  constructor
  · intro h
    exact (mul_le_mul_of_nonneg_right (Nat.cast_le.2 h) hu.le).trans htwice
  · intro h
    exact (mul_lt_mul_of_pos_right (Nat.cast_lt.2 h) hu).trans_le htwice

/-- Of two magnitudes the smaller one's interval ends where the greater one's starts, or
before, and before if the ends belong to both. -/
theorem high_le_low (h : d.magnitude < d'.magnitude) : d.high ≤ d'.low ∧
    (d.significand % 2 = 0 → d'.significand % 2 = 0 → d.high < d'.low) := by
  have hgap := d'.gap_le
  unfold high low
  rcases lt_of_magnitude_lt h with hexp | ⟨hexp, hsig⟩
  · -- The units differ, and two of the smaller ones fit into a greater one.
    have hunits : 2 * d.quarter ≤ d'.quarter := by
      unfold quarter
      calc (2 : ℚ) * 2 ^ (d.exponent - 2) = 2 ^ (d.exponent - 2 + 1) := by
            rw [zpow_add_one₀ (by norm_num), mul_comm]
        _ ≤ 2 ^ (d'.exponent - 2) := zpow_le_zpow_right₀ (by norm_num) (by omega)
    have hexp' : -1074 < d'.exponent := lt_of_le_of_lt d.exponent_ge hexp
    have hlt := d.significand_lt
    have hge := hiddenBit_le hexp'
    have hpower : d'.significand = hiddenBit → d'.gap = 1 := fun heq => if_pos ⟨heq, hexp'⟩
    obtain ⟨hle, hstrict⟩ := mul_unit_le (a := 4 * d.significand + 2)
      (b := 4 * d'.significand - d'.gap) d.quarter_pos hunits
    unfold hiddenBit at *
    exact ⟨hle (by omega), fun heven _ => hstrict (by omega)⟩
  · have hunits : d'.quarter = d.quarter := by rw [quarter, quarter, hexp]
    rw [hunits]
    constructor
    · exact mul_le_mul_of_nonneg_right (Nat.cast_le.2 (by omega)) d.quarter_pos.le
    · intro heven heven'
      exact mul_lt_mul_of_pos_right (Nat.cast_lt.2 (by omega)) d.quarter_pos

/-- No rational rounds to two magnitudes. -/
theorem not_rounds_of_lt {x : ℚ} (h : d.magnitude < d'.magnitude) (hd : d.Rounds x) :
    ¬d'.Rounds x := by
  intro hd'
  obtain ⟨hle, hlt⟩ := high_le_low h
  have hx : x = d.high ∧ d.high = d'.low := by
    have := hd.le_high
    have := hd'.low_le
    constructor <;> linarith
  -- Both intervals hold their ends, which are then apart.
  unfold Rounds at hd hd'
  split at hd
  · next heven =>
    split at hd'
    · next heven' => exact absurd hx.2 (hlt heven heven').ne
    · exact absurd (hx.1.trans hx.2) hd'.1.ne'
  · exact absurd hx.1 hd.2.ne

theorem Rounds.magnitude_eq {x : ℚ} (hd : d.Rounds x) (hd' : d'.Rounds x) :
    d.magnitude = d'.magnitude := by
  rcases Nat.lt_trichotomy d.magnitude d'.magnitude with hlt | heq | hgt
  · exact absurd hd' (not_rounds_of_lt hlt hd)
  · exact heq
  · exact absurd hd (not_rounds_of_lt hgt hd')

end Courier.Double
