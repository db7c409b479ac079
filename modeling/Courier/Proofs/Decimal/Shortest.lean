import Courier.Proofs.Decimal.Interval
import Mathlib.Tactic.Positivity

/-!
# The shortest decimal rounds to its number

A decimal found on a grid lies between the bounds (`between_of_onGrid?`), and on a grid that
is finer than the upper half of the interval one is found (`onGrid?_isSome`). The last grid of
the search is that fine, since the power of ten is chosen by the binary logarithm
(`ten_zpow_le`). So the search never comes back empty, and what it finds rounds to the number
it is for (`shortest_rounds`).
-/

namespace Courier.Double

/-- A power in whole numbers : numerator and denominator. -/
theorem power_parts {b : Nat} (hb : 0 < b) (p : Int) :
    let den := if p < 0 then Nat.pow b (-p).toNat else 1
    let num := if p < 0 then 1 else Nat.pow b p.toNat
    0 < den ∧ (num : ℚ) = b ^ p * den := by
  dsimp only
  rcases lt_or_ge p 0 with hneg | hpos
  · obtain ⟨k, rfl⟩ : ∃ k : Nat, p = -k := ⟨(-p).toNat, by omega⟩
    have hb' : (b : ℚ) ^ k ≠ 0 := by positivity
    rw [if_pos hneg, if_pos hneg, neg_neg, Int.toNat_natCast, Nat.pow_eq]
    refine ⟨by positivity, ?_⟩
    rw [zpow_neg, zpow_natCast, Nat.cast_pow, Nat.cast_one, inv_mul_cancel₀ hb']
  · obtain ⟨k, rfl⟩ : ∃ k : Nat, p = k := ⟨p.toNat, by omega⟩
    rw [if_neg (by omega), if_neg (by omega), Int.toNat_natCast, Nat.pow_eq]
    refine ⟨one_pos, ?_⟩
    rw [zpow_natCast, Nat.cast_pow, Nat.cast_one, mul_one]

/-! ## Points of a grid -/

section Grid

variable {low value high scale n : Nat} {closed : Bool} {place : Int}

/-- The rational lies between bounds that are given in units of `1 / scale`. -/
def Between (low high scale : Nat) (closed : Bool) (x : ℚ) : Prop :=
  if closed then low ≤ x * scale ∧ x * scale ≤ high else low < x * scale ∧ x * scale < high

/-- The same in whole numbers, for a multiple of the step of a grid. -/
def Inside (low high up unit : Nat) (closed : Bool) (n : Nat) : Prop :=
  if closed then low * up ≤ n * unit ∧ n * unit ≤ high * up
  else low * up < n * unit ∧ n * unit < high * up

theorem between_iff {up unit : Nat} (hup : 0 < up) (hunit : (unit : ℚ) = 10 ^ place * scale * up) :
    Between low high scale closed (n * 10 ^ place) ↔ Inside low high up unit closed n := by
  have hup' : (0 : ℚ) < up := Nat.cast_pos.2 hup
  have hpoint : ((n * unit : Nat) : ℚ) = n * 10 ^ place * scale * up := by
    push_cast
    rw [hunit]
    ring
  unfold Between Inside
  simp only [← Nat.cast_le (α := ℚ), ← Nat.cast_lt (α := ℚ), hpoint]
  simp only [Nat.cast_mul, mul_le_mul_iff_left₀ hup', mul_lt_mul_iff_left₀ hup']

/-- The step of a grid and the factor that makes it whole. -/
theorem grid_unit (scale : Nat) (place : Int) :
    let up := if place < 0 then Nat.pow 10 (-place).toNat else 1
    let unit := scale * if place < 0 then 1 else Nat.pow 10 place.toNat
    0 < up ∧ (unit : ℚ) = 10 ^ place * scale * up := by
  obtain ⟨hup, hunit⟩ := power_parts (b := 10) (by norm_num) place
  refine ⟨hup, ?_⟩
  rw [Nat.cast_mul, hunit, Nat.cast_ofNat]
  ring

/-- What is found is inside, and the neighbour above is not inside if nothing is found. -/
theorem onGrid?_spec (low value high scale : Nat) (closed : Bool) (place : Int) :
    ∃ up unit : Nat, 0 < up ∧ (unit : ℚ) = 10 ^ place * scale * up ∧
      (∀ n, onGrid? low value high scale closed place = some n →
        Inside low high up unit closed n) ∧
      (onGrid? low value high scale closed place = none →
        ¬Inside low high up unit closed (value * up / unit + 1)) := by
  obtain ⟨hup, hunit⟩ := grid_unit scale place
  refine ⟨_, _, hup, hunit, ?_⟩
  unfold onGrid?
  dsimp only
  generalize (if place < 0 then Nat.pow 10 (-place).toNat else 1) = up
  generalize (scale * if place < 0 then 1 else Nat.pow 10 place.toNat) = unit
  generalize value * up / unit = a
  have hinside (n : Nat) :
      (if closed then low * up ≤ n * unit && n * unit ≤ high * up
        else low * up < n * unit && n * unit < high * up : Bool) = true ↔
      Inside low high up unit closed n := by
    unfold Inside
    split <;> simp
  split
  · next ha ha' =>
    -- Whichever of the two is nearer, both are inside.
    have hone (n : Nat) (hn : n = a ∨ n = a + 1) : Inside low high up unit closed n := by
      rcases hn with rfl | rfl
      · exact (hinside _).1 ha
      · exact (hinside _).1 ha'
    refine ⟨fun n h => hone n ?_, fun h => ?_⟩
    · split at h
      · exact .inl (Option.some.inj h).symm
      · split at h
        · exact .inr (Option.some.inj h).symm
        · have := Option.some.inj h
          omega
    · split at h
      · cases h
      · split at h <;> cases h
  · next ha _ => exact ⟨fun n h => Option.some.inj h ▸ (hinside a).1 ha, fun h => nomatch h⟩
  · next _ ha' =>
    exact ⟨fun n h => Option.some.inj h ▸ (hinside (a + 1)).1 ha', fun h => nomatch h⟩
  · next _ ha' =>
    refine ⟨fun n h => (nomatch h), fun _ h => ?_⟩
    rw [(hinside (a + 1)).2 h] at ha'
    cases ha'

theorem between_of_onGrid? (h : onGrid? low value high scale closed place = some n) :
    Between low high scale closed (n * 10 ^ place) := by
  obtain ⟨up, unit, hup, hunit, hsome, -⟩ := onGrid?_spec low value high scale closed place
  exact (between_iff hup hunit).2 (hsome n h)

/-- On a grid with steps shorter than the part above the number a point is found. -/
theorem onGrid?_isSome (hs : 0 < scale) (hlow : low ≤ value)
    (hstep : 10 ^ place * scale + (value : ℚ) < high) :
    (onGrid? low value high scale closed place).isSome := by
  obtain ⟨up, unit, hup, hunit, -, hnone⟩ := onGrid?_spec low value high scale closed place
  rw [Option.isSome_iff_ne_none]
  refine fun h => hnone h ?_
  have hup' : (0 : ℚ) < up := Nat.cast_pos.2 hup
  have hpos : 0 < unit := by
    rw [← Nat.cast_pos (α := ℚ), hunit]
    positivity
  have hroom : unit + value * up < high * up := by
    rw [← Nat.cast_lt (α := ℚ)]
    calc ((unit + value * up : Nat) : ℚ) = (10 ^ place * scale + value) * up := by
          push_cast
          rw [hunit]
          ring
      _ < high * up := mul_lt_mul_of_pos_right hstep hup'
      _ = ((high * up : Nat) : ℚ) := by push_cast; rfl
  -- The neighbour above is past the number and at most one step away.
  have hdiv := Nat.div_add_mod (value * up) unit
  have hmod := Nat.mod_lt (value * up) hpos
  have hnext : (value * up / unit + 1) * unit = unit * (value * up / unit) + unit := by ring
  have hover : low * up < (value * up / unit + 1) * unit := by
    have := Nat.mul_le_mul_right up hlow
    omega
  have hunder : (value * up / unit + 1) * unit < high * up := by omega
  unfold Inside
  split
  · exact ⟨hover.le, hunder.le⟩
  · exact ⟨hover, hunder⟩

end Grid

/-! ## Powers of ten and of two

The fraction 30103 / 100000 is just above the logarithm of two, so that the places it gives are
right but for a factor of two on all exponents that numbers have. -/

theorem ten_pow_le : ∀ s < 1024, 10 ^ (s * 30103 / 100000) ≤ 2 * 2 ^ s := by
  decide +kernel

theorem two_pow_le : ∀ t < 1075, 2 ^ t ≤ 2 * 10 ^ ((t * 30103 + 99999) / 100000) := by
  decide +kernel

/-- The power of ten below a power of two, by the logarithm to five places. -/
theorem ten_zpow_le {k : Int} (hl : -1074 ≤ k) (hu : k ≤ 1023) :
    (10 : ℚ) ^ (k * 30103 / 100000) ≤ 2 * 2 ^ k := by
  rcases lt_or_ge k 0 with hneg | hpos
  · obtain ⟨t, rfl⟩ : ∃ t : Nat, k = -t := ⟨(-k).toNat, by omega⟩
    have hplace : (-(t : Int)) * 30103 / 100000 = -((t * 30103 + 99999) / 100000 : Nat) := by omega
    have h : ((2 ^ t : Nat) : ℚ) ≤ ((2 * 10 ^ ((t * 30103 + 99999) / 100000) : Nat) : ℚ) :=
      Nat.cast_le.2 (two_pow_le t (by omega))
    rw [hplace, zpow_neg, zpow_neg, zpow_natCast, zpow_natCast]
    push_cast at h
    rw [← div_eq_mul_inv, le_div_iff₀ (by positivity), inv_mul_le_iff₀ (by positivity)]
    linarith
  · obtain ⟨s, rfl⟩ : ∃ s : Nat, k = s := ⟨k.toNat, by omega⟩
    have hplace : (s : Int) * 30103 / 100000 = (s * 30103 / 100000 : Nat) := by omega
    rw [hplace, zpow_natCast, zpow_natCast]
    exact_mod_cast ten_pow_le s (by omega)

/-! ## The search -/

variable {d : Double}

theorem log2_significand_le (h : d.isZero = false) : Nat.log2 d.significand ≤ 52 := by
  have hlt : Nat.log2 d.significand < 53 := by
    rw [Nat.log2_lt (significand_pos h).ne']
    exact d.significand_lt
  omega

/-- The last grid of the search has steps shorter than half a unit. -/
theorem last_step_lt (hf : d.isFinite = true) (hz : d.isZero = false) :
    (10 : ℚ) ^ ((Nat.log2 d.significand + d.exponent) * 30103 / 100000 + 2 - 23) <
      2 * d.quarter := by
  have hlog := log2_significand_le hz
  have hl := d.exponent_ge
  have hu := exponent_le hf
  have hq := d.quarter_pos
  have hten : (10 : ℚ) ^ ((Nat.log2 d.significand + d.exponent) * 30103 / 100000) ≤
      2 ^ 55 * d.quarter := by
    calc (10 : ℚ) ^ ((Nat.log2 d.significand + d.exponent) * 30103 / 100000)
        ≤ 2 * 2 ^ (Nat.log2 d.significand + d.exponent) := ten_zpow_le (by omega) (by omega)
      _ ≤ 2 * 2 ^ (54 + (d.exponent - 2)) := by
          have hle : Nat.log2 d.significand + d.exponent ≤ 54 + (d.exponent - 2) := by omega
          exact mul_le_mul_of_nonneg_left (zpow_le_zpow_right₀ (by norm_num) hle) (by norm_num)
      _ = 2 ^ 55 * d.quarter := by
          rw [zpow_add₀ (by norm_num), quarter]
          ring
  rw [show ∀ x : Int, x + 2 - 23 = x + (-21) from fun x => by ring, zpow_add₀ (by norm_num)]
  calc (10 : ℚ) ^ ((Nat.log2 d.significand + d.exponent) * 30103 / 100000) * 10 ^ (-21 : Int)
      ≤ 2 ^ 55 * d.quarter * 10 ^ (-21 : Int) := by gcongr
    _ = 2 ^ 55 * 10 ^ (-21 : Int) * d.quarter := by ring
    _ < 2 * d.quarter := by
        gcongr
        norm_num

/-- A quarter of the unit as the search has it, in whole numbers. -/
theorem quarter_eq (d : Double) :
    let q := d.exponent - 2
    let up := if q < 0 then 1 else Nat.pow 2 q.toNat
    let scale := if q < 0 then Nat.pow 2 (-q).toNat else 1
    0 < scale ∧ (up : ℚ) = d.quarter * scale :=
  power_parts (b := 2) (by norm_num) (d.exponent - 2)

/-- The bounds of the search are those of the interval. -/
theorem between_iff_rounds {up scale : Nat} (hs : 0 < scale) (hup : (up : ℚ) = d.quarter * scale)
    (x : ℚ) :
    Between ((4 * d.significand - d.gap) * up) ((4 * d.significand + 2) * up) scale
      (d.significand % 2 = 0) x ↔ d.Rounds x := by
  have hs' : (0 : ℚ) < scale := Nat.cast_pos.2 hs
  unfold Between Rounds low high
  simp only [Nat.cast_mul _ up, hup, ← mul_assoc, mul_le_mul_iff_left₀ hs',
    mul_lt_mul_iff_left₀ hs', decide_eq_true_eq]

/-- The decimal of a finite number other than zero rounds to it. -/
theorem shortest_rounds (hf : d.isFinite = true) (hz : d.isZero = false) :
    d.Rounds (d.shortest.1 * 10 ^ d.shortest.2) := by
  obtain ⟨hs, hup⟩ := d.quarter_eq
  unfold shortest
  dsimp only at hs hup ⊢
  generalize (if d.exponent - 2 < 0 then 1 else Nat.pow 2 (d.exponent - 2).toNat) = up at *
  generalize (if d.exponent - 2 < 0 then Nat.pow 2 (-(d.exponent - 2)).toNat else 1) = scale at *
  rw [← gap]
  set top : Int := (Nat.log2 d.significand + d.exponent) * 30103 / 100000 + 2
  set grid : Int → Option Nat := onGrid? ((4 * d.significand - d.gap) * up)
    (4 * d.significand * up) ((4 * d.significand + 2) * up) scale (d.significand % 2 = 0)
  obtain ⟨r, hr⟩ : ∃ r, (List.range 24).findSome? (fun i : Nat =>
      (grid (top - i)).map fun n => (n, top - i)) = some r := by
    rw [← Option.isSome_iff_exists, List.findSome?_isSome_iff]
    -- The last grid has a point, whatever those before it have.
    refine ⟨23, List.mem_range.2 (by norm_num), ?_⟩
    rw [Option.isSome_map]
    refine onGrid?_isSome hs (Nat.mul_le_mul_right up (Nat.sub_le _ _)) ?_
    have hstep := mul_lt_mul_of_pos_right (last_step_lt hf hz) (Nat.cast_pos (α := ℚ).2 hs)
    push_cast
    rw [hup]
    linarith
  obtain ⟨i, -, hi⟩ := List.exists_of_findSome?_eq_some hr
  obtain ⟨n, hn, rfl⟩ := Option.map_eq_some_iff.1 hi
  rw [hr, Option.getD_some]
  exact (between_iff_rounds hs hup _).1 (between_of_onGrid? hn)

end Courier.Double
