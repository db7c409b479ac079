import Courier.Text.Hex
import Courier.Yaml.Gap

/-!
# Quoted texts

Between single quotes a quote is written twice and nothing else is special. Between
double quotes a backslash starts an escape: a letter, the number of a character in two,
four or eight hexadecimal digits, or the end of a line, which it takes away.
-/

namespace Courier.Yaml

/-- The two ways to quote. -/
inductive Quote where
  | single
  | double
deriving DecidableEq

/-- The character that ends a quoted text. -/
def Quote.char : Quote → Char
  | .single => '\''
  | .double => '"'

/-- The character of an escape of one letter. -/
def unescape? (c : Char) : Option Char :=
  match c with
  | '0' => some '\x00'
  | 'a' => some '\x07'
  | 'b' => some '\x08'
  | 't' | '\t' => some '\t'
  | 'n' => some '\n'
  | 'v' => some '\x0b'
  | 'f' => some '\x0c'
  | 'r' => some '\r'
  | 'e' => some '\x1b'
  | ' ' | '"' | '/' | '\\' => some c
  | 'N' => some '\u0085'
  | '_' => some '\u00a0'
  | 'L' => some '\u2028'
  | 'P' => some '\u2029'
  | _ => none

/-- The number of digits of an escape by number. -/
def escapeDigits? (c : Char) : Option Nat :=
  match c with
  | 'x' => some 2
  | 'u' => some 4
  | 'U' => some 8
  | _ => none

/-- The character of a number. -/
def charOfNat? (n : Nat) : Option Char :=
  if n.isValidChar then some (Char.ofNat n) else none

/-- Where the reader of a quoted text stands. -/
inductive Quoting where
  /-- In a word. -/
  | word
  /-- In a gap. -/
  | gap (g : Gap)
  /-- After a single quote, which ends the text unless another follows. -/
  | quote
  /-- After a backslash. -/
  | escape
  /-- In an escape with `missing + 1` digits to come. -/
  | number (missing value : Nat)

/-- One character of a word: the text and where the reader stands after it; `none` at the
closing quote. -/
def Quote.step? (q : Quote) (text : List Char) (c : Char) : Option (List Char × Quoting) :=
  if q = .single ∧ c = '\'' then some (text, .quote)
  else if c = q.char then none
  else if q = .double ∧ c = '\\' then some (text, .escape)
  else if isBreak c then some (text, .gap (.breaks (some c) []))
  else if isBlank c then some (text, .gap (.blanks [c]))
  else some (c :: text, .word)

/-- Reads a text after its opening quote, with the text so far, latest first. Gives the
text and the rest after the closing quote. -/
def readQuoted (q : Quote) (text : List Char) (state : Quoting) :
    Source → Option (List Char × Source)
  | [] => match state with | .quote => some (text, []) | _ => none
  | p :: rest =>
    let c := p.char
    match state with
    | .word =>
      match q.step? text c with
      | none => some (text, rest)
      | some (text, next) => readQuoted q text next rest
    | .gap g =>
      if isBreak c then readQuoted q text (.gap (g.withBreak c)) rest
      else if isBlank c then readQuoted q text (.gap (g.withBlank c)) rest
      else if Source.atDocumentMark (p :: rest) then none
      else
        let text := g.fold ++ text
        match q.step? text c with
        | none => some (text, rest)
        | some (text, next) => readQuoted q text next rest
    | .quote =>
      if c = '\'' then readQuoted q (c :: text) .word rest else some (text, p :: rest)
    | .escape =>
      if isBreak c then readQuoted q text (.gap (.breaks none [])) rest
      else
        match escapeDigits? c, unescape? c with
        | some n, _ => readQuoted q text (.number (n - 1) 0) rest
        | none, some d => readQuoted q (d :: text) .word rest
        | none, none => none
    | .number missing value =>
      match Text.hexDigit? c, missing with
      | none, _ => none
      | some d, missing + 1 => readQuoted q text (.number missing (16 * value + d)) rest
      | some d, 0 =>
        match charOfNat? (16 * value + d) with
        | none => none
        | some e => readQuoted q (e :: text) .word rest

end Courier.Yaml
