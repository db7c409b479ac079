import Courier.Text.Hex
import Courier.Text.Utf8
import Courier.Yaml.Source
import Courier.Yaml.Token

/-!
# Names, tags and directives

The tokens that start with an ampersand, an asterisk, an exclamation mark or a percent
sign. Each reader starts after that character.
-/

namespace Courier.Yaml

/-! ## Names -/

/-- Reads the name of an anchor or an alias: at least one character, with nothing after
it that could belong to it. -/
def readName (s : Source) : Option (String × Source) :=
  let (name, rest) := s.span isNameChar
  let ends (c : Char) : Bool := isBlank c || isBreak c || "?:,]\x7d%@\x60".toList.contains c
  if name.isEmpty || !rest.endsOr ends then none else some (String.ofList name, rest)

/-! ## Tags -/

/-- Whether a character may stand in a tag. Commas and square brackets may only where
they cannot be marks. -/
def isTagChar (marks : Bool) (c : Char) : Bool :=
  isNameChar c || "%;/?:@&=+$.!~*'()".toList.contains c || (marks && ",[]".toList.contains c)

/-- The number of bytes of a character that starts with the byte `b`. -/
def encodedSize? (b : UInt8) : Option Nat :=
  let n := b.toNat
  if n < 0x80 then some 1
  else if n < 0xC0 then none
  else if n < 0xE0 then some 2
  else if n < 0xF0 then some 3
  else if n < 0xF8 then some 4
  else none

/-- The bytes of a tag. A percent sign and two hexadecimal digits stand for a byte; the
`missing` bytes of a character that began so are written so too. -/
def tagBytes? (missing : Nat) : List Char → Option Tag
  | [] => if missing = 0 then some [] else none
  | '%' :: a :: b :: rest =>
    match Text.hexDigit? a, Text.hexDigit? b, missing with
    | some x, some y, missing + 1 =>
      let b := UInt8.ofNat (16 * x + y)
      if b.toNat / 0x40 = 2 then (tagBytes? missing rest).map (b :: ·) else none
    | some x, some y, 0 =>
      let b := UInt8.ofNat (16 * x + y)
      match encodedSize? b with
      | none => none
      | some n => (tagBytes? (n - 1) rest).map (b :: ·)
    | _, _, _ => none
  | c :: rest =>
    if c = '%' ∨ missing ≠ 0 then none else (tagBytes? 0 rest).map (Utf8.encodeChar c ++ ·)

/-- Reads the characters of a tag. -/
def readTagText (marks : Bool) (s : Source) : Option (Tag × Source) :=
  let (cs, rest) := s.span (isTagChar marks)
  (tagBytes? 0 cs).map (·, rest)

/-- Reads a handle after its first exclamation mark: name characters, and a second
exclamation mark if there is one. -/
def readHandle (s : Source) : String × Source :=
  let (name, rest) := s.span isNameChar
  if rest.peek? = some '!' then (String.ofList ('!' :: name ++ ['!']), rest.drop 1)
  else (String.ofList ('!' :: name), rest)

/-- Reads a tag after its exclamation mark, whatever follows it. It is written out between
angle brackets, or starts with a handle of two exclamation marks, or with one exclamation
mark, which is a handle itself; an exclamation mark alone is a tag of its own. -/
def readTagBody (s : Source) : Option (Token × Source) := do
  if s.peek? = some '<' then
    let (text, rest) ← readTagText true (s.drop 1)
    if text.isEmpty || Source.peek? rest ≠ some '>' then none
    else return (.tag "" text, rest.drop 1)
  else
    let (handle, rest) := readHandle s
    let (text, rest) ← readTagText false rest
    if 1 < handle.length && handle.endsWith "!" then
      if text.isEmpty then none else return (.tag handle text, rest)
    else
      let text := Utf8.encode (handle.toList.drop 1) ++ text
      return (if text.isEmpty then .tag "" [33] else .tag "!" text, rest)

/-- Reads a tag after its exclamation mark, with a gap after it. -/
def readTag (inFlow : Bool) (s : Source) : Option (Token × Source) :=
  (readTagBody s).filter fun (_, rest) =>
    Source.atGap rest || (inFlow && Source.peek? rest = some ',')

/-! ## Directives -/

/-- Reads a part of a version, of at most nine digits. -/
def readVersionPart (s : Source) : Option (Nat × Source) :=
  let (digits, rest) := s.span (·.isDigit)
  if digits.isEmpty || 9 < digits.length then none
  else some (digits.foldl (fun n c => 10 * n + (c.toNat - 48)) 0, rest)

/-- Reads what a version directive says. -/
def readVersion (s : Source) : Option (Token × Source) := do
  let (major, rest) ← readVersionPart s
  if Source.peek? rest ≠ some '.' then none
  else
    let (minor, rest) ← readVersionPart (rest.drop 1)
    return (.version major minor, rest)

/-- Reads what a tag directive says: a handle with exclamation marks at both ends, or of
one alone, and what it stands for. -/
def readMeaning (s : Source) : Option (Token × Source) := do
  if s.peek? ≠ some '!' then none
  else
    let (handle, rest) := readHandle (s.drop 1)
    if !handle.endsWith "!" || !(rest.peek?.any isBlank) then none
    else
      let (start, rest) ← readTagText true (rest.skip isBlank)
      if start.isEmpty || !Source.atGap rest then none else return (.handle handle start, rest)

/-- Reads a directive after its percent sign, with the rest of its line. -/
def readDirective (s : Source) : Option (Token × Source) := do
  let (name, rest) := s.span isNameChar
  if !rest.atGap then none
  else
    let rest := rest.skip isBlank
    let (token, rest) ← match String.ofList name with
      | "YAML" => readVersion rest
      | "TAG" => readMeaning rest
      | _ => none
    return (token, ← Source.endLine? rest)

end Courier.Yaml
