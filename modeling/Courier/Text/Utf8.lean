/-!
# UTF-8

`encode` writes characters as bytes. `units` reads bytes back, one unit for each
character and one for each maximal part that is no character, so that both ways
of reading are views of one list: `decode?` wants every unit to be a character,
`decodeLossy` puts U+FFFD in the place of every other.

The reader goes byte by byte. `Reading` is what it knows between two bytes: that
it stands between characters, or how many bytes of the present one are missing,
which bytes may come next, and the bits collected so far.
-/

namespace Courier.Utf8

/-! ## Writing -/

/-- The bytes of one character, one to four of them. -/
def encodeChar (c : Char) : List UInt8 :=
  let n := c.toNat
  if n < 0x80 then
    [UInt8.ofNat n]
  else if n < 0x800 then
    [UInt8.ofNat (0xC0 + n / 0x40), UInt8.ofNat (0x80 + n % 0x40)]
  else if n < 0x10000 then
    [UInt8.ofNat (0xE0 + n / 0x1000), UInt8.ofNat (0x80 + n / 0x40 % 0x40),
      UInt8.ofNat (0x80 + n % 0x40)]
  else
    [UInt8.ofNat (0xF0 + n / 0x40000), UInt8.ofNat (0x80 + n / 0x1000 % 0x40),
      UInt8.ofNat (0x80 + n / 0x40 % 0x40), UInt8.ofNat (0x80 + n % 0x40)]

/-- The bytes of a text. -/
def encode (cs : List Char) : List UInt8 :=
  cs.flatMap encodeChar

/-- The bytes of a string. -/
def ofString (s : String) : List UInt8 :=
  encode s.toList

/-! ## Reading -/

/-- Where the reader stands between two bytes. -/
inductive Reading where
  /-- Between two characters. -/
  | idle
  /-- Inside a character: `missing + 1` bytes are to come, the next one from `low`
  to `high`, and `bits` is what the bytes so far contribute. -/
  | within (missing low high bits : Nat)
deriving DecidableEq, Repr

/-- A byte read between two characters. The ranges leave out overlong forms,
surrogates and numbers past U+10FFFF. `done` holds the units so far, latest first. -/
def Reading.start (done : List (Option Char)) (b : UInt8) : List (Option Char) × Reading :=
  let n := b.toNat
  if n < 0x80 then (some (Char.ofNat n) :: done, .idle)
  else if n < 0xC2 then (none :: done, .idle)
  else if n < 0xE0 then (done, .within 0 0x80 0xBF (n - 0xC0))
  else if n = 0xE0 then (done, .within 1 0xA0 0xBF 0)
  else if n = 0xED then (done, .within 1 0x80 0x9F 13)
  else if n < 0xF0 then (done, .within 1 0x80 0xBF (n - 0xE0))
  else if n = 0xF0 then (done, .within 2 0x90 0xBF 0)
  else if n < 0xF4 then (done, .within 2 0x80 0xBF (n - 0xF0))
  else if n = 0xF4 then (done, .within 2 0x80 0x8F 4)
  else (none :: done, .idle)

/-- One more byte. A byte that cannot continue the present character ends it as an
undecodable part and is read afresh. -/
def Reading.feed (done : List (Option Char)) : Reading → UInt8 → List (Option Char) × Reading
  | .idle, b => Reading.start done b
  | .within missing low high bits, b =>
    let n := b.toNat
    if low ≤ n ∧ n ≤ high then
      let bits := bits * 0x40 + (n - 0x80)
      match missing with
      | 0 => (some (Char.ofNat bits) :: done, .idle)
      | missing + 1 => (done, .within missing 0x80 0xBF bits)
    else
      Reading.start (none :: done) b

/-- The end of the bytes. A character cut short is an undecodable part. -/
def Reading.finish (done : List (Option Char)) : Reading → List (Option Char)
  | .idle => done.reverse
  | .within .. => (none :: done).reverse

/-- The units of `bytes` from a reader in the given state. -/
def unitsFrom (done : List (Option Char)) (r : Reading) : List UInt8 → List (Option Char)
  | [] => r.finish done
  | b :: bytes => let next := r.feed done b; unitsFrom next.1 next.2 bytes

/-- The units of `bytes`: `some c` for a character, `none` for a maximal part that
is no character. -/
def units (bytes : List UInt8) : List (Option Char) :=
  unitsFrom [] .idle bytes

/-- All the characters, if every unit is one. -/
def allChars? (us : List (Option Char)) : Option (List Char) :=
  go [] us
where
  /-- Collects the characters, latest first. -/
  go (done : List Char) : List (Option Char) → Option (List Char)
    | [] => some done.reverse
    | none :: _ => none
    | some c :: us => go (c :: done) us

/-- The text that `bytes` spell, if they are UTF-8 throughout. -/
def decode? (bytes : List UInt8) : Option (List Char) :=
  allChars? (units bytes)

/-- The text that `bytes` spell, with U+FFFD for each undecodable part. -/
def decodeLossy (bytes : List UInt8) : List Char :=
  (units bytes).map (·.getD '\uFFFD')

end Courier.Utf8
