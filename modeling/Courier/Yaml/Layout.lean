import Courier.Yaml.Block
import Courier.Yaml.Plain
import Courier.Yaml.Quoted
import Courier.Yaml.Tag

/-!
# The layout of a document

`Token.ofSource?` cuts a document into tokens. Indentation opens and closes blocks. A key
needs no mark: each place where one may start is remembered as a `KeySpot` until a colon
shows that it did, and then the mark goes in front of the tokens read since. Such a key
stands on one line and ends within 1024 characters.
-/

namespace Courier.Yaml

/-- A place where a key without a mark may have started. -/
structure KeySpot where
  /-- Whether a key has to start here, for the sake of the block around it. -/
  required : Bool
  /-- The number of tokens before it. -/
  tokens : Nat
  line : Nat
  column : Nat

/-- Whether the key must have ended before a place. -/
def KeySpot.isStale (k : KeySpot) (p : Placed) : Bool :=
  k.line < p.line || k.column + 1024 < p.column

/-- A document that is being cut into tokens. -/
structure Layout where
  rest : Source
  /-- The tokens so far, latest first. -/
  tokens : List Token
  /-- The number of tokens so far. -/
  count : Nat
  /-- The columns of the blocks around, innermost first. -/
  blocks : List Int
  /-- Whether a key without a mark may start here. -/
  keyAllowed : Bool
  /-- The place where a key may have started in the innermost bracket. -/
  spot : Option KeySpot
  /-- The like for every bracket around, and for the outermost level. -/
  outer : List (Option KeySpot)

namespace Layout

variable (l : Layout)

/-- A document before its first token. -/
def start (s : Source) : Layout :=
  ⟨s, [], 0, [], true, none, []⟩

/-- Whether the reader is between brackets. -/
def inFlow : Bool := !l.outer.isEmpty

/-- The column of the innermost block, or -1. -/
def indent : Int := l.blocks.headD (-1)

/-- The column of the next character. -/
def column : Int := (l.rest.head?.map (·.column)).getD 0

/-- With one more token. -/
def emit (t : Token) : Layout :=
  { l with tokens := t :: l.tokens, count := l.count + 1 }

/-- With a token after the first `n`. -/
def insert (n : Nat) (t : Token) : Layout :=
  { l with tokens := l.tokens.insertIdx (l.count - n) t, count := l.count + 1 }

/-- Past the next `n` characters. -/
def advance (n : Nat) : Layout :=
  { l with rest := l.rest.drop n }

/-! ## Blocks -/

/-- Opens a block at a column right of the innermost one, its token after the first `n`. -/
def openBlock (column : Int) (n : Nat) (t : Token) : Layout :=
  if l.inFlow || column ≤ l.indent then l
  else { l with blocks := column :: l.blocks }.insert n t

/-- Closes every block right of a column. -/
def closeBlocks (column : Int) : Layout :=
  if l.inFlow then l
  else
    let closed := (l.blocks.takeWhile (column < ·)).length
    { l with
      blocks := l.blocks.drop closed
      tokens := List.replicate closed .blockEnd ++ l.tokens
      count := l.count + closed }

/-! ## Keys without a mark -/

/-- Forgets the place where a key may have started; `none` if it had to. -/
def dropSpot? : Option Layout :=
  if l.spot.any (·.required) then none else some { l with spot := none }

/-- Remembers that a key may start here. -/
def markSpot? : Option Layout :=
  if l.keyAllowed then
    match l.rest with
    | [] => none
    | p :: _ => do
      let l ← l.dropSpot?
      let required := !l.inFlow && l.indent == (p.column : Int)
      return { l with spot := some ⟨required, l.count, p.line, p.column⟩ }
  else some l

/-- Forgets every key that must have ended; `none` if one of them had to be there. -/
def dropStale? : Option Layout :=
  match l.rest with
  | [] => some l
  | p :: _ =>
    let stale (k : Option KeySpot) : Bool := k.any (·.isStale p)
    if (l.spot :: l.outer).any fun k => stale k && k.any (·.required) then none
    else
      let keep (k : Option KeySpot) : Option KeySpot := if stale k then none else k
      some { l with spot := keep l.spot, outer := l.outer.map keep }

/-! ## Steps -/

/-- Skips blanks, comments and line ends. Outside brackets a key may start on a new line,
and tabs may not stand where one may start. `comment` says whether a comment has begun. -/
def skipGap (inFlow : Bool) (keyAllowed comment : Bool) : Source → Source × Bool
  | [] => ([], keyAllowed)
  | p :: rest =>
    let c := p.char
    if isBreak c then skipGap inFlow (keyAllowed || !inFlow) false rest
    else if comment || c == ' ' || (c == '\t' && (inFlow || !keyAllowed))
        || (c == '\uFEFF' && p.line == 0 && p.column == 0) then
      skipGap inFlow keyAllowed comment rest
    else if c == '#' then skipGap inFlow keyAllowed true rest
    else (p :: rest, keyAllowed)

/-- With the end of every block, and no key in sight. -/
def leave? : Option Layout := do
  let l ← (l.closeBlocks (-1)).dropSpot?
  return { l with keyAllowed := false }

/-- A bracket that opens. -/
def openBracket? (t : Token) : Option Layout := do
  let l ← l.markSpot?
  return { l with keyAllowed := true, spot := none, outer := l.spot :: l.outer }.emit t |>.advance 1

/-- A bracket that closes. -/
def closeBracket? (t : Token) : Option Layout := do
  let l ← l.dropSpot?
  let l := match l.outer with
    | [] => l
    | k :: outer => { l with spot := k, outer := outer }
  return { l with keyAllowed := false }.emit t |>.advance 1

/-- The mark of an item. -/
def item? : Option Layout := do
  if !l.inFlow && !l.keyAllowed then none
  else
    let l ← (l.openBlock l.column l.count .blockSeq).dropSpot?
    return { l with keyAllowed := true }.emit .item |>.advance 1

/-- The mark of a key. -/
def key? : Option Layout := do
  if !l.inFlow && !l.keyAllowed then none
  else
    let l ← (l.openBlock l.column l.count .blockMap).dropSpot?
    return { l with keyAllowed := !l.inFlow }.emit .key |>.advance 1

/-- The mark of a value, which may show that a key has started. -/
def value? : Option Layout :=
  match l.spot with
  | some k =>
    let l := { l with spot := none, keyAllowed := false }.insert k.tokens .key
    some ((l.openBlock k.column k.tokens .blockMap).emit .value |>.advance 1)
  | none =>
    if !l.inFlow && !l.keyAllowed then none
    else
      let l := l.openBlock l.column l.count .blockMap
      some ({ l with keyAllowed := !l.inFlow }.emit .value |>.advance 1)

/-- A token that may start a key and none can follow. -/
def word? (read : Option (Token × Source)) : Option Layout := do
  let l ← l.markSpot?
  let (t, rest) ← read
  return { l with rest := rest, keyAllowed := false }.emit t

/-- A plain text. A key may start after one that was followed by a line end. -/
def plain? : Option Layout := do
  let l ← l.markSpot?
  let (text, gap, rest) ← readPlain l.inFlow (l.indent + 1) [] none l.rest
  return { l with rest := rest, keyAllowed := gap.any Gap.isBroken }.emit
    (.scalar (String.ofList text.reverse) true)

/-- A block text. -/
def block? (literal : Bool) : Option Layout := do
  let l ← l.dropSpot?
  let (text, rest) ← readBlock literal l.indent (l.rest.drop 1)
  return { l with rest := rest, keyAllowed := true }.emit
    (.scalar (String.ofList text.reverse) false)

/-- A quoted text. -/
def quoted? (q : Quote) : Option Layout :=
  l.word? do
    let (text, rest) ← readQuoted q [] .word (l.rest.drop 1)
    return (.scalar (String.ofList text.reverse) false, rest)

/-- The next token, which starts with the character `c` before `rest`. -/
def step? (c : Char) (rest : Source) : Option Layout :=
  let named (t : String → Token) := (readName rest).map fun r => (t r.1, r.2)
  let marks := l.inFlow || rest.atGap
  if l.column = 0 && c == '%' then do
    let l ← l.leave?
    let (t, rest) ← readDirective rest
    return { l with rest := rest }.emit t
  else if l.rest.atMark '-' then l.leave?.map fun l => (l.emit .documentStart).advance 3
  else if l.rest.atMark '.' then l.leave?.map fun l => (l.emit .documentEnd).advance 3
  else if c == '-' && rest.atGap then l.item?
  else if c == '?' && marks then l.key?
  else if c == ':' && marks then l.value?
  else
    match c with
    | '[' => l.openBracket? .flowSeq
    | '\x7b' => l.openBracket? .flowMap
    | ']' => l.closeBracket? .flowSeqEnd
    | '\x7d' => l.closeBracket? .flowMapEnd
    | ',' => l.dropSpot?.map fun l => ({ l with keyAllowed := true }.emit .comma).advance 1
    | '*' => l.word? (named .alias)
    | '&' => l.word? (named .anchor)
    | '!' => l.word? (readTag l.inFlow rest)
    | '\'' => l.quoted? .single
    | '"' => l.quoted? .double
    | '|' => if l.inFlow then none else l.block? true
    | '>' => if l.inFlow then none else l.block? false
    | '%' | '@' | '\x60' => none
    | '-' => l.plain?
    | '?' | ':' => if l.inFlow then none else l.plain?
    | _ => if isBlank c then none else l.plain?

/-- All the tokens. Every step takes at least one character; `fuel` bounds the number of
steps. -/
def tokens? : Nat → Layout → Option (List Token)
  | 0, _ => none
  | fuel + 1, l =>
    let (rest, keyAllowed) := skipGap l.inFlow l.keyAllowed false l.rest
    match { l with rest := rest, keyAllowed := keyAllowed }.dropStale? with
    | none => none
    | some l =>
      match rest with
      | [] => l.leave?.map fun l => l.tokens.reverse
      | p :: after =>
        match (l.closeBlocks p.column).step? p.char after with
        | none => none
        | some l => tokens? fuel l

end Layout

/-- The tokens of a document. -/
def Token.ofSource? (s : Source) : Option (List Token) :=
  Layout.tokens? (s.length + 1) (.start s)

end Courier.Yaml
