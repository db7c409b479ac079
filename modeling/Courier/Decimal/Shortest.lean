import Courier.Decimal.Double

/-!
# The shortest decimal of a number

Every finite number has an interval of reals that round to it: half a unit to either
side, half as much below a power of two, its ends included if the significand is even.
`shortest` finds the coarsest decimal grid with a point in the interval, tries on each
grid the two neighbours of the number, and of two points on that grid takes the nearer,
of two equally near the even one.

`Layout` says how the digits are written; `Layout.render` writes them.
-/

namespace Courier.Double

/-! ## Digits -/

/-- A multiple of `10 ^ place` in the interval of a number, if one of the two neighbours
of the number is. The bounds and the number are given in units of `1 / scale`. -/
def onGrid? (low value high scale : Nat) (closed : Bool) (place : Int) : Option Nat :=
  let up := if place < 0 then Nat.pow 10 (-place).toNat else 1
  let unit := scale * if place < 0 then 1 else Nat.pow 10 place.toNat
  let a := value * up / unit
  let inside (n : Nat) : Bool :=
    let p := n * unit
    if closed then low * up ≤ p && p ≤ high * up else low * up < p && p < high * up
  match inside a, inside (a + 1) with
  | true, true =>
    let below := value * up - a * unit
    let above := (a + 1) * unit - value * up
    if below < above then some a else if above < below then some (a + 1)
    else some (a + a % 2)
  | true, false => some a
  | false, true => some (a + 1)
  | false, false => none

/-- The shortest decimal `digits * 10 ^ place` that rounds to a finite number other than
zero: digits and place. -/
def shortest (d : Double) : Nat × Int :=
  let m := d.significand
  let q := d.exponent - 2
  let gap := if m = hiddenBit ∧ -1074 < d.exponent then 1 else 2
  let up := if q < 0 then 1 else Nat.pow 2 q.toNat
  let scale := if q < 0 then Nat.pow 2 (-q).toNat else 1
  let top : Int := (Nat.log2 m + d.exponent) * 30103 / 100000 + 2
  let search := (List.range 24).findSome? fun i =>
    (onGrid? ((4 * m - gap) * up) (4 * m * up) ((4 * m + 2) * up) scale (m % 2 = 0)
      (top - (i : Nat))).map fun n => (n, top - (i : Nat))
  search.getD (m, d.exponent)

/-! ## Writing -/

/-- How a decimal is written: positionally while the exponent of its first digit lies
from `least` to below `bound`, else with an exponent. -/
structure Layout where
  least : Int
  bound : Int

/-- Canonical number texts are positional from `1e-5` to below `1e16`. -/
def canonicalLayout : Layout := ⟨-5, 16⟩

/-- The text of `digits * 10 ^ place`. A positional text has at least one digit on both
sides of the point; an exponent has a sign and no leading zeros. -/
def Layout.render (layout : Layout) (digits : Nat) (place : Int) : List Char :=
  let ds := Nat.toDigits 10 digits
  let e : Int := place + ds.length - 1
  if layout.least ≤ e ∧ e < layout.bound then
    if 0 ≤ place then ds ++ List.replicate place.toNat '0' ++ ['.', '0']
    else if 0 ≤ e then ds.take (e.toNat + 1) ++ '.' :: ds.drop (e.toNat + 1)
    else '0' :: '.' :: (List.replicate (-e - 1).toNat '0' ++ ds)
  else
    let point := if ds.length = 1 then [] else '.' :: ds.drop 1
    let sign := if e < 0 then '-' else '+'
    ds.take 1 ++ point ++ 'e' :: sign :: Nat.toDigits 10 e.natAbs

/-- The text of a finite number: the shortest that reads back. -/
def render (d : Double) : List Char :=
  let body :=
    if d.isZero then ['0', '.', '0']
    else let s := d.shortest; canonicalLayout.render s.1 s.2
  if d.isNegative then '-' :: body else body

end Courier.Double
