/-!
# The characters of a document

A `Source` is what is left of a document, each character with its line and column. Only
printable characters and the common blanks may stand in a document. The line breaks of
the older systems are written as the line feed; the line and the paragraph separator end
a line too and stay what they are.
-/

namespace Courier.Yaml

/-! ## Classes of characters -/

/-- Whether a character may stand in a document. -/
def isPrintable (c : Char) : Bool :=
  let n := c.toNat
  n == 0x09 || n == 0x0A || n == 0x0D || (0x20 ≤ n && n ≤ 0x7E) || n == 0x85
    || (0xA0 ≤ n && n ≤ 0xD7FF) || (0xE000 ≤ n && n ≤ 0xFFFD) || 0x10000 ≤ n

/-- Whether a character is a blank within a line. -/
def isBlank (c : Char) : Bool :=
  c == ' ' || c == '\t'

/-- Whether a character ends a line. -/
def isBreak (c : Char) : Bool :=
  c == '\n' || c == '\u2028' || c == '\u2029'

/-- Whether a character may stand in a name. -/
def isNameChar (c : Char) : Bool :=
  c.isAlphanum || c == '_' || c == '-'

/-! ## Placed characters -/

/-- A character at its place. -/
structure Placed where
  char : Char
  /-- The number of lines above. -/
  line : Nat
  /-- The number of characters to the left. -/
  column : Nat

/-- What is left of a document. -/
abbrev Source := List Placed

/-- The characters with one kind of break: a carriage return, alone or before a line
feed, and the next-line character are line feeds. -/
def unifyBreaks : List Char → List Char
  | [] => []
  | '\r' :: '\n' :: rest => '\n' :: unifyBreaks rest
  | '\r' :: rest => '\n' :: unifyBreaks rest
  | '\u0085' :: rest => '\n' :: unifyBreaks rest
  | c :: rest => c :: unifyBreaks rest

/-- The characters at their places, from a given one on. -/
def place (line column : Nat) : List Char → Source
  | [] => []
  | c :: rest =>
    ⟨c, line, column⟩ :: if isBreak c then place (line + 1) 0 rest else place line (column + 1) rest

namespace Source

/-- The source of a text, if all its characters are printable. -/
def ofText? (text : String) : Option Source :=
  if text.toList.all isPrintable then some (place 0 0 (unifyBreaks text.toList)) else none

/-- The next character. -/
def peek? (s : Source) : Option Char :=
  s.head?.map (·.char)

/-- Whether the next character, if there is one, satisfies `p`. -/
def endsOr (p : Char → Bool) (s : Source) : Bool :=
  s.peek?.all p

/-- Whether a blank, a break or the end comes next. -/
def atGap (s : Source) : Bool :=
  s.endsOr fun c => isBlank c || isBreak c

/-- Whether a break or the end comes next. -/
def atLineEnd (s : Source) : Bool :=
  s.endsOr isBreak

/-- The characters up to the first that fails `p`, and the rest. -/
def span (p : Char → Bool) (s : Source) : List Char × Source :=
  ((s.takeWhile fun q => p q.char).map (·.char), s.dropWhile fun q => p q.char)

/-- The rest from the first character that fails `p`. -/
def skip (p : Char → Bool) (s : Source) : Source :=
  s.dropWhile fun q => p q.char

/-- Whether three of the character `c` stand at the start of a line, with a gap after. -/
def atMark (c : Char) : Source → Bool
  | p :: q :: r :: rest =>
    p.column == 0 && p.char == c && q.char == c && r.char == c && atGap rest
  | _ => false

/-- Whether a line that starts or ends a document comes next. -/
def atDocumentMark (s : Source) : Bool :=
  s.atMark '-' || s.atMark '.'

/-- The rest after the blanks, the comment and the break that may end a line; `none` if
something else is left on it. -/
def endLine? (s : Source) : Option Source :=
  let s := s.skip isBlank
  let s := if s.peek? = some '#' then s.skip (!isBreak ·) else s
  if s.atLineEnd then some (s.drop 1) else none

end Source

end Courier.Yaml
