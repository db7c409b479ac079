import Courier.Text.Blank
import Courier.Text.Hidden
import Courier.Url.Address
import Courier.Url.Punycode

/-!
# Domain names

A domain name is compared without regard to case and form: letters become lower case,
full-width characters their ASCII counterparts, every kind of full stop a full stop, and
some characters that show nothing are dropped. A label that then still holds characters
outside ASCII is written in Punycode after `xn--`; a label given that way has to be the
code of one.

`domainToAscii` does that in part. It knows the capital letters listed in `capitals`, the
full-width forms of ASCII characters, two more full stops and the characters that
`mapDomainChar` drops. It knows no other compatibility forms, so that the Kelvin sign,
ligatures and letterlike symbols stay as they are; it does not normalise names, and it
checks neither the direction of a label nor the joiners in it. Nothing is missing for names
of ASCII characters without labels in Punycode.

A `NameForm` is any such function. Addresses are read with one, and what is proved of them
holds for every one with the two properties of `NameForm.Lawful`.
-/

namespace Courier.Url

/-- Runs of capital letters outside ASCII: first, last, step, and distance to the small
letter. -/
def capitals : List (Nat × Nat × Nat × Int) := [
  (0xC0, 0xD6, 1, 32), (0xD8, 0xDE, 1, 32), (0x100, 0x12E, 2, 1), (0x132, 0x136, 2, 1),
  (0x139, 0x147, 2, 1), (0x14A, 0x176, 2, 1), (0x178, 0x178, 1, -121), (0x179, 0x17D, 2, 1),
  (0x181, 0x181, 1, 210), (0x182, 0x184, 2, 1), (0x186, 0x186, 1, 206), (0x187, 0x187, 1, 1),
  (0x189, 0x18A, 1, 205), (0x18B, 0x18B, 1, 1), (0x18E, 0x18E, 1, 79), (0x18F, 0x18F, 1, 202),
  (0x190, 0x190, 1, 203), (0x191, 0x191, 1, 1), (0x193, 0x193, 1, 205), (0x194, 0x194, 1, 207),
  (0x196, 0x196, 1, 211), (0x197, 0x197, 1, 209), (0x198, 0x198, 1, 1), (0x19C, 0x19C, 1, 211),
  (0x19D, 0x19D, 1, 213), (0x19F, 0x19F, 1, 214), (0x1A0, 0x1A4, 2, 1), (0x1A6, 0x1A6, 1, 218),
  (0x1A7, 0x1A7, 1, 1), (0x1A9, 0x1A9, 1, 218), (0x1AC, 0x1AC, 1, 1), (0x1AE, 0x1AE, 1, 218),
  (0x1AF, 0x1AF, 1, 1), (0x1B1, 0x1B2, 1, 217), (0x1B3, 0x1B5, 2, 1), (0x1B7, 0x1B7, 1, 219),
  (0x1B8, 0x1B8, 1, 1), (0x1BC, 0x1BC, 1, 1), (0x1C4, 0x1C4, 1, 2), (0x1C5, 0x1C5, 1, 1),
  (0x1C7, 0x1C7, 1, 2), (0x1C8, 0x1C8, 1, 1), (0x1CA, 0x1CA, 1, 2), (0x1CB, 0x1DB, 2, 1),
  (0x1DE, 0x1EE, 2, 1), (0x1F1, 0x1F1, 1, 2), (0x1F2, 0x1F4, 2, 1), (0x1F6, 0x1F6, 1, -97),
  (0x1F7, 0x1F7, 1, -56), (0x1F8, 0x21E, 2, 1), (0x220, 0x220, 1, -130), (0x222, 0x232, 2, 1),
  (0x23A, 0x23A, 1, 10795), (0x23B, 0x23B, 1, 1), (0x23D, 0x23D, 1, -163),
  (0x23E, 0x23E, 1, 10792), (0x241, 0x241, 1, 1), (0x243, 0x243, 1, -195), (0x244, 0x244, 1, 69),
  (0x245, 0x245, 1, 71), (0x246, 0x24E, 2, 1), (0x370, 0x372, 2, 1), (0x376, 0x376, 1, 1),
  (0x37F, 0x37F, 1, 116), (0x386, 0x386, 1, 38), (0x388, 0x38A, 1, 37), (0x38C, 0x38C, 1, 64),
  (0x38E, 0x38F, 1, 63), (0x391, 0x3A1, 1, 32), (0x3A3, 0x3AB, 1, 32), (0x3CF, 0x3CF, 1, 8),
  (0x3D8, 0x3EE, 2, 1), (0x3F4, 0x3F4, 1, -60), (0x3F7, 0x3F7, 1, 1), (0x3F9, 0x3F9, 1, -7),
  (0x3FA, 0x3FA, 1, 1), (0x3FD, 0x3FF, 1, -130), (0x400, 0x40F, 1, 80), (0x410, 0x42F, 1, 32),
  (0x460, 0x480, 2, 1), (0x48A, 0x4BE, 2, 1), (0x4C0, 0x4C0, 1, 15), (0x4C1, 0x4CD, 2, 1),
  (0x4D0, 0x52E, 2, 1), (0x531, 0x556, 1, 48), (0x1E00, 0x1E94, 2, 1),
  (0x1E9E, 0x1E9E, 1, -7615), (0x1EA0, 0x1EFE, 2, 1)]

/-- The small letter of a capital one outside ASCII. -/
def small? (n : Nat) : Option Nat :=
  (capitals.find? fun r => r.1 ≤ n && n ≤ r.2.1 && (n - r.1) % r.2.2.1 == 0).map fun r =>
    ((n : Int) + r.2.2.2).toNat

/-- What a domain name has in the place of a character. -/
def mapDomainChar (c : Char) : List Char :=
  let n := c.toNat
  if n < 0x80 then [c.toLower]
  else if n = 0xAD ∨ n = 0x200B ∨ n = 0x2060 ∨ n = 0xFEFF ∨ (0xFE00 ≤ n ∧ n ≤ 0xFE0F) then []
  else if n = 0x3002 ∨ n = 0xFF61 then ['.']
  else if 0xFF01 ≤ n ∧ n ≤ 0xFF5E then [(Char.ofNat (n - 0xFEE0)).toLower]
  else [Char.ofNat ((small? n).getD n)]

/-- The ASCII characters that no domain name holds. -/
def isForbidden (c : Char) : Bool :=
  c.toNat ≤ 0x20 || c.toNat == 0x7F
    || ['#', '%', '/', ':', '<', '>', '?', '@', '[', '\\', ']', '^', '|'].contains c

/-- Whether a character outside ASCII may stand in a label. -/
def isLabelChar (c : Char) : Bool :=
  !Text.isBlank c && (!Text.isHidden c || (0x300 ≤ c.toNat && c.toNat ≤ 0x36F)) && c != '\uFFFD'

/-- The ASCII form of a label. -/
def labelToAscii (label : List Char) : Option (List Char) :=
  if label.all (·.toNat < 0x80) then
    if label.take 4 = ['x', 'n', '-', '-'] then
      match Punycode.decode? (label.drop 4) with
      | none => none
      | some text =>
        if text.any (0x80 ≤ ·.toNat) && text.all (fun c => c.toNat < 0x80 || isLabelChar c)
            && text.flatMap mapDomainChar == text && Punycode.encode text == label.drop 4 then
          some label
        else none
    else some label
  else if label.all fun c => c.toNat < 0x80 || isLabelChar c then
    some (['x', 'n', '-', '-'] ++ Punycode.encode label)
  else none

/-- The ASCII form of a domain name. -/
def domainToAscii (name : List Char) : Option (List Char) :=
  let mapped := name.flatMap mapDomainChar
  if mapped.any isForbidden then none
  else
    ((splitParts '.' mapped).mapM labelToAscii).map fun labels => ['.'].intercalate labels

/-! ## Any way to write names -/

/-- The ASCII forms of texts, where they are domain names. -/
abbrev NameForm := List Char → Option (List Char)

/-- Whether a character may stand in a domain name in its ASCII form. -/
def isNameChar (c : Char) : Bool :=
  c.toNat < 0x80 && c.toLower == c && !isForbidden c

/-- A domain name in its ASCII form. -/
def IsName (name : List Char) : Prop :=
  ∀ c ∈ name, isNameChar c = true

/-- What is expected of the ASCII forms of domain names. -/
structure NameForm.Lawful (form : NameForm) : Prop where
  /-- They have neither capital letters nor forbidden characters. -/
  isName {name name' : List Char} : form name = some name' → IsName name'
  /-- A name in ASCII form has no other. -/
  of_isName {name name' : List Char} : IsName name → form name = some name' → name' = name

end Courier.Url
