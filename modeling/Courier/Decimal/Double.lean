/-!
# Binary floating point numbers

A `Double` is a 64-bit pattern: a sign, eleven bits of exponent and fifty-two of
fraction. Below the sign the pattern counts the magnitudes upwards from zero, with
infinity after the greatest finite one and the patterns of no number after that, so
that the pattern of `m` units of `2 ^ q` is `(q + 1074) * hiddenBit + m`.

Arithmetic goes through exact fractions: `ofRatio` rounds a fraction to the nearest
magnitude, a tie to the even one. `ofDecimal` reads a decimal numeral that way;
`scaleDecimal` multiplies or divides a rounded integer by a rounded power of ten,
which is cheaper and can differ from it in the last place.
-/

namespace Courier

/-- A 64-bit floating point number, by its bit pattern. -/
structure Double where
  bits : UInt64
deriving DecidableEq, Repr, Inhabited

namespace Double

/-! ## Parts of a number -/

/-- The weight of the sign bit. -/
def signBit : Nat := 0x8000000000000000

/-- The weight of the lowest bit of the exponent: the bit of a significand that is not
written. -/
def hiddenBit : Nat := 0x10000000000000

/-- The pattern of infinity. -/
def infinityBits : Nat := 0x7FF0000000000000

/-- The number of a sign and a pattern below the sign bit. -/
def ofMagnitude (negative : Bool) (magnitude : Nat) : Double :=
  ⟨UInt64.ofNat (magnitude + if negative then signBit else 0)⟩

/-- Zero. -/
def zero : Double := ofMagnitude false 0

/-- Infinity with a sign. -/
def infinity (negative : Bool) : Double := ofMagnitude negative infinityBits

/-- The pattern that stands for no number. -/
def nan : Double := ofMagnitude false 0x7FF8000000000000

variable (d : Double)

/-- Whether the sign bit is set. -/
def isNegative : Bool := signBit ≤ d.bits.toNat

/-- The pattern without the sign bit. -/
def magnitude : Nat := d.bits.toNat % signBit

/-- Whether the pattern is that of a finite number. -/
def isFinite : Bool := d.magnitude < infinityBits

/-- Whether the pattern stands for no number. -/
def isNaN : Bool := infinityBits < d.magnitude

/-- Whether the number is zero, of either sign. -/
def isZero : Bool := d.magnitude == 0

/-- The integer `m` of a finite number `± m * 2 ^ q`. -/
def significand : Nat :=
  if d.magnitude < hiddenBit then d.magnitude else hiddenBit + d.magnitude % hiddenBit

/-- The exponent `q` of a finite number `± m * 2 ^ q`. -/
def exponent : Int :=
  (max 1 (d.magnitude / hiddenBit) : Nat) - 1075

/-- Numerator and denominator of the absolute value of a finite number. -/
def ratio : Nat × Nat :=
  if d.exponent < 0 then (d.significand, Nat.pow 2 (-d.exponent).toNat)
  else (d.significand * Nat.pow 2 d.exponent.toNat, 1)

/-- The number with the other sign. -/
def negate : Double := ofMagnitude (!d.isNegative) d.magnitude

/-! ## Rounding -/

/-- The nearest integer to `num / den`, a tie to the even one. -/
def divNearest (num den : Nat) : Nat :=
  let q := num / den
  let r := 2 * (num % den)
  if den < r then q + 1 else if r < den then q else q + q % 2

/-- The number nearest to `num / den`, for `0 < den`. The unit `2 ^ q` is chosen so
that the count of units has fifty-three bits, or fewer at the lowest exponent. -/
def ofRatio (negative : Bool) (num den : Nat) : Double :=
  if num = 0 then ofMagnitude negative 0
  else
    let guess : Int := (Nat.log2 num : Int) - Nat.log2 den - 53
    let scaled (q : Int) : Nat × Nat :=
      if q < 0 then (num * Nat.pow 2 (-q).toNat, den) else (num, den * Nat.pow 2 q.toNat)
    let first := scaled guess
    let q := max (-1074) (if first.1 / first.2 < 2 * hiddenBit then guess else guess + 1)
    let parts := scaled q
    ofMagnitude negative (min infinityBits ((q + 1074).toNat * hiddenBit + divNearest parts.1 parts.2))

/-- The number nearest to a natural number. -/
def ofNat (n : Nat) : Double := ofRatio false n 1

/-- The product of two non-negative numbers, the first one finite. -/
def mulMagnitude (d e : Double) : Double :=
  ofRatio false (d.ratio.1 * e.ratio.1) (d.ratio.2 * e.ratio.2)

/-- The quotient of two non-negative finite numbers, the second not zero. -/
def divMagnitude (d e : Double) : Double :=
  ofRatio false (d.ratio.1 * e.ratio.2) (d.ratio.2 * e.ratio.1)

/-! ## Decimal numerals -/

/-- The number nearest to `± digits * 10 ^ exponent`. An exponent far outside the range
gives infinity or zero without its power being formed. -/
def ofDecimal (negative : Bool) (digits : Nat) (exponent : Int) : Double :=
  if digits = 0 then ofMagnitude negative 0
  else
    let size : Int := Nat.log2 digits
    if 1100 < size + 3 * exponent ∧ 0 ≤ exponent then infinity negative
    else if size + 3 * exponent < -1200 ∧ exponent < 0 then ofMagnitude negative 0
    else if exponent < 0 then ofRatio negative digits (Nat.pow 10 (-exponent).toNat)
    else ofRatio negative (digits * Nat.pow 10 exponent.toNat) 1

/-- A power of ten, rounded. -/
def powerOfTen (n : Nat) : Double := ofNat (Nat.pow 10 n)

/-- A non-negative number divided by `10 ^ n`, at most 308 places at a time. -/
def shiftDown (d : Double) (n : Nat) : Double :=
  if n ≤ 308 then d.divMagnitude (powerOfTen n)
  else if d.isZero then d
  else shiftDown (d.divMagnitude (powerOfTen 308)) (n - 308)
termination_by n

/-- The rounded `digits`, multiplied by or divided by a rounded power of ten; `none` if
that is too great. -/
def scaleDecimal (digits : Nat) (exponent : Int) : Option Double :=
  let d := ofNat digits
  if exponent < 0 then some (shiftDown d (-exponent).toNat)
  else if exponent ≤ 308 then
    let product := d.mulMagnitude (powerOfTen exponent.toNat)
    if product.isFinite then some product else none
  else if d.isZero then some d else none

end Double

end Courier
