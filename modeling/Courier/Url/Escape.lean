import Courier.Text.Utf8

/-!
# Percent escapes

The parts of an address escape different characters: `Reserve` names the part, `escapes`
says which of its ASCII characters are written as escapes of their byte. Controls and
everything outside ASCII are escaped in every part.
-/

namespace Courier.Url

/-- The parts of an address with their own rules for escapes. -/
inductive Reserve where
  /-- Only what every part escapes. -/
  | control
  | userinfo
  | path
  | query
  /-- The query of an address with a special scheme. -/
  | specialQuery
  | fragment
deriving DecidableEq, Repr

/-- The printable ASCII characters that a part escapes. -/
def Reserve.characters : Reserve → List Char
  | .control => []
  | .fragment => [' ', '"', '<', '>', '\x60']
  | .query => [' ', '"', '#', '<', '>']
  | .specialQuery => [' ', '"', '#', '<', '>', '\x27']
  | .path => [' ', '"', '<', '>', '\x60', '#', '?', '\x7b', '\x7d']
  | .userinfo =>
    [' ', '"', '<', '>', '\x60', '#', '?', '\x7b', '\x7d', '/', ':', ';', '=', '@', '[', '\\',
      ']', '^', '|']

/-- Whether a part escapes a character. -/
def Reserve.escapes (r : Reserve) (c : Char) : Bool :=
  c.toNat < 0x20 || 0x7F ≤ c.toNat || r.characters.contains c

/-- The escape of a byte, its digits in upper case. -/
def escapeByte (b : UInt8) : List Char :=
  ['%', (Nat.digitChar (b.toNat / 16)).toUpper, (Nat.digitChar (b.toNat % 16)).toUpper]

/-- How a part writes a character. -/
def Reserve.writeChar (r : Reserve) (c : Char) : List Char :=
  if r.escapes c then (Utf8.encodeChar c).flatMap escapeByte else [c]

/-- How a part writes a text. -/
def Reserve.write (r : Reserve) (cs : List Char) : List Char :=
  cs.flatMap r.writeChar

/-- The value of a hexadecimal digit of either case. -/
def hexValue? (b : UInt8) : Option Nat :=
  let n := b.toNat
  if 48 ≤ n ∧ n ≤ 57 then some (n - 48)
  else if 65 ≤ n ∧ n ≤ 70 then some (n - 55)
  else if 97 ≤ n ∧ n ≤ 102 then some (n - 87)
  else none

/-- The bytes with every well-formed escape replaced by its byte. -/
def unescape : List UInt8 → List UInt8
  | 37 :: a :: b :: rest =>
    match hexValue? a, hexValue? b with
    | some x, some y => UInt8.ofNat (16 * x + y) :: unescape rest
    | _, _ => 37 :: unescape (a :: b :: rest)
  | b :: rest => b :: unescape rest
  | [] => []

end Courier.Url
