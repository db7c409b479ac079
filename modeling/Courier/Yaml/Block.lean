import Courier.Yaml.Source

/-!
# Block texts

A block text is indented under its header. A literal text keeps its line breaks; in a
folded one a single break between two lines that do not start with a blank is read as a
blank. The header says what becomes of the breaks at the end, and may give the
indentation; otherwise it is that of the first line with content.
-/

namespace Courier.Yaml

/-- What is kept of the breaks at the end of a block text. -/
inductive Chomping where
  /-- None. -/
  | strip
  /-- The first one. -/
  | clip
  /-- All of them. -/
  | keep

/-- The header of a block text, without the character that starts it. -/
structure BlockHeader where
  chomping : Chomping
  /-- The indentation relative to the enclosing block, if given. -/
  increment : Option Nat

/-- The chomping that a character stands for. -/
def chomping? (c : Char) : Option Chomping :=
  if c = '+' then some .keep else if c = '-' then some .strip else none

/-- The header and the rest from the next line on. Chomping and indentation come in
either order; the indentation is one digit and not zero. -/
def BlockHeader.read (s : Source) : Option (BlockHeader × Source) := do
  let chomp (s : Source) : Option Chomping × Source :=
    match s.peek?.bind chomping? with
    | some c => (some c, s.drop 1)
    | none => (none, s)
  let (before, s) := chomp s
  let (increment, s) := match s with
    | p :: rest => if p.char.isDigit then (some (p.char.toNat - 48), rest) else (none, s)
    | [] => (none, s)
  let (after, s) := if before.isNone && increment.isSome then chomp s else (none, s)
  if increment = some 0 then none
  else return (⟨(before <|> after).getD .clip, increment⟩, ← s.endLine?)

/-- The greatest indentation up to the first line with content; `none` if a tab stands in
it. -/
def deepest? (least : Nat) : Source → Option Nat
  | [] => some least
  | p :: rest =>
    if p.char = '\t' then none
    else if p.char = ' ' then deepest? least rest
    else if isBreak p.char then deepest? (max least p.column) rest
    else some (max least p.column)

/-- A block text that is being read. -/
structure BlockText where
  /-- The text so far, latest first. -/
  text : List Char
  /-- The break that ended the last line. -/
  ending : Option Char
  /-- The breaks of empty lines since, latest first. -/
  empty : List Char
  /-- Whether the last line started with a blank. -/
  indented : Bool

namespace BlockText

/-- The text with the breaks before a line that starts with the character `c`. -/
def startLine (literal : Bool) (t : BlockText) (c : Char) : BlockText :=
  let joined := !literal && t.ending == some '\n' && !t.indented && !isBlank c
  let gap := if joined then (if t.empty.isEmpty then [' '] else []) else t.ending.toList
  ⟨c :: (t.empty ++ (gap ++ t.text)), none, [], isBlank c⟩

/-- The whole text, latest character first. -/
def finish (chomping : Chomping) (t : BlockText) : List Char :=
  match chomping with
  | .strip => t.text
  | .clip => t.ending.toList ++ t.text
  | .keep => t.empty ++ (t.ending.toList ++ t.text)

/-- Reads lines indented by `margin`; `inLine` says whether the reader is in a line or
before one. -/
def read (literal : Bool) (margin : Nat) (t : BlockText) (inLine : Bool) :
    Source → Option (BlockText × Source)
  | [] => some (t, [])
  | p :: rest =>
    let c := p.char
    if inLine then
      if isBreak c then
        read literal margin ⟨t.text, some c, [], t.indented⟩ false rest
      else read literal margin ⟨c :: t.text, none, [], t.indented⟩ true rest
    else if p.column < margin && c == ' ' then read literal margin t false rest
    else if p.column < margin && c == '\t' then none
    else if isBreak c then read literal margin ⟨t.text, t.ending, c :: t.empty, t.indented⟩ false rest
    else if p.column = margin then read literal margin (t.startLine literal c) true rest
    else some (t, p :: rest)

end BlockText

/-- Reads a block text after the character that starts it. The enclosing block is at
column `indent`, or -1 if there is none. -/
def readBlock (literal : Bool) (indent : Int) (s : Source) : Option (List Char × Source) := do
  let (header, s) ← BlockHeader.read s
  let margin ← match header.increment with
    | some n => pure ((max indent 0).toNat + n)
    | none => deepest? (max 1 (indent + 1).toNat) s
  let (t, rest) ← BlockText.read literal margin ⟨[], none, [], false⟩ false s
  return (t.finish header.chomping, rest)

end Courier.Yaml
