import Courier.Yaml.Source

/-!
# Gaps between words

In a text that runs over several lines the blanks around a break do not count. A single
line feed is read as a blank, and of several the first one is dropped; other breaks are
kept.
-/

namespace Courier.Yaml

/-- What stands between two words of a text. -/
inductive Gap where
  /-- Blanks within a line, latest first. -/
  | blanks (cs : List Char)
  /-- The break that ends the line, if it is not escaped, and the later ones, latest
  first. -/
  | breaks (first : Option Char) (more : List Char)

namespace Gap

/-- The gap with one more break. -/
def withBreak (c : Char) : Gap → Gap
  | .blanks _ => .breaks (some c) []
  | .breaks first more => .breaks first (c :: more)

/-- The gap with one more blank. -/
def withBlank (c : Char) : Gap → Gap
  | .blanks cs => .blanks (c :: cs)
  | g => g

/-- Whether the gap goes over the end of a line. -/
def isBroken : Gap → Bool
  | .blanks _ => false
  | .breaks .. => true

/-- What the gap reads as, latest first. -/
def fold : Gap → List Char
  | .blanks cs => cs
  | .breaks (some '\n') [] => [' ']
  | .breaks (some '\n') more => more
  | .breaks (some c) more => more ++ [c]
  | .breaks none more => more

end Gap

end Courier.Yaml
