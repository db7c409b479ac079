import Courier.Yaml.Gap

/-!
# Plain texts

A plain text stands without quotes. It ends before a colon with a gap after it, before a
comment, at the line that starts or ends a document, in a block at a line of less
indentation, and among brackets at a comma or a bracket.
-/

namespace Courier.Yaml

/-- Whether a character separates the items of a bracketed collection or delimits it. -/
def isFlowMark (c : Char) : Bool :=
  c == ',' || c == '[' || c == ']' || c == '\x7b' || c == '\x7d'

/-- Whether a colon before `rest` stands against a mark, which no text may. -/
def isColonClash (inFlow : Bool) (c : Char) (rest : Source) : Bool :=
  inFlow && c == ':' && rest.peek?.any fun d => isFlowMark d || d == '?'

/-- Whether a plain text ends before the character `c`. -/
def endsPlain (inFlow : Bool) (c : Char) (rest : Source) : Bool :=
  (c == ':' && rest.atGap) || (inFlow && isFlowMark c)

/-- Reads a plain text that must be indented by `margin`, with the text so far, latest
first, and the gap after its last word. Gives text, gap and rest. -/
def readPlain (inFlow : Bool) (margin : Int) (text : List Char) (gap : Option Gap) :
    Source → Option (List Char × Option Gap × Source)
  | [] => some (text, gap, [])
  | p :: rest =>
    let c := p.char
    if isBreak c then
      readPlain inFlow margin text (some ((gap.getD (.blanks [])).withBreak c)) rest
    else if isBlank c then
      if c == '\t' && p.column < margin && gap.any (·.isBroken) then none
      else readPlain inFlow margin text (some ((gap.getD (.blanks [])).withBlank c)) rest
    else if gap.isSome && ((!inFlow && p.column < margin) || Source.atDocumentMark (p :: rest)
        || c == '#') then
      some (text, gap, p :: rest)
    else if isColonClash inFlow c rest then none
    else if endsPlain inFlow c rest then some (text, gap, p :: rest)
    else readPlain inFlow margin (c :: (gap.elim [] Gap.fold ++ text)) none rest

end Courier.Yaml
