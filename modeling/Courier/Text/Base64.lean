/-!
# Base64

Three bytes are written as four digits of six bits; what is left over is filled up with
zero bits to whole digits and with `=` to four characters.
-/

namespace Courier.Base64

/-- The character of a digit below 64. -/
def digitChar (d : Nat) : Char :=
  if d < 26 then Char.ofNat (d + 65)
  else if d < 52 then Char.ofNat (d + 71)
  else if d < 62 then Char.ofNat (d - 4)
  else if d = 62 then '+' else '/'

/-- The text of a sequence of bytes. -/
def encode : List UInt8 → List Char
  | [] => []
  | [a] =>
    [digitChar (a.toNat / 4), digitChar (a.toNat % 4 * 16), '=', '=']
  | [a, b] =>
    [digitChar (a.toNat / 4), digitChar (a.toNat % 4 * 16 + b.toNat / 16),
      digitChar (b.toNat % 16 * 4), '=']
  | a :: b :: c :: rest =>
    digitChar (a.toNat / 4) :: digitChar (a.toNat % 4 * 16 + b.toNat / 16)
      :: digitChar (b.toNat % 16 * 4 + c.toNat / 64) :: digitChar (c.toNat % 64) :: encode rest

/-- The digit of a character. -/
def digit? (c : Char) : Option Nat :=
  let n := c.toNat
  if 65 ≤ n ∧ n ≤ 90 then some (n - 65)
  else if 97 ≤ n ∧ n ≤ 122 then some (n - 71)
  else if 48 ≤ n ∧ n ≤ 57 then some (n + 4)
  else if c = '+' then some 62
  else if c = '/' then some 63
  else none

/-- The bytes of a text in groups of four characters. -/
def decode? : List Char → Option (List UInt8)
  | [] => some []
  | w :: x :: y :: z :: rest =>
    match digit? w, digit? x, digit? y, digit? z with
    | some a, some b, some c, some d =>
      (decode? rest).map fun bytes =>
        UInt8.ofNat (4 * a + b / 16) :: UInt8.ofNat (b % 16 * 16 + c / 4)
          :: UInt8.ofNat (c % 4 * 64 + d) :: bytes
    | some a, some b, some c, none =>
      if z = '=' ∧ rest = [] then
        some [UInt8.ofNat (4 * a + b / 16), UInt8.ofNat (b % 16 * 16 + c / 4)]
      else none
    | some a, some b, none, none =>
      if y = '=' ∧ z = '=' ∧ rest = [] then some [UInt8.ofNat (4 * a + b / 16)] else none
    | _, _, _, _ => none
  | _ => none

end Courier.Base64
