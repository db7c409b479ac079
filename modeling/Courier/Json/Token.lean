import Courier.Json.Value
import Courier.Text.Hex

/-!
# JSON tokens

`Token.scan` cuts a text into tokens, one character at a time. `Mode` is what the
scanner is in the middle of. The text comes as decoded units, an undecodable part
being `none`: inside a string literal that spoils only the literal's content, elsewhere
it is no token. Where the text cannot go on, the last token is `Token.bad`.

A string token carries its content, or `none` if its escapes are legal but spell no
text; a number token carries its value, or `none` if that is out of range. Both matter
only to a reader that wants the content.
-/

namespace Courier.Json

/-- A token of a JSON text. -/
inductive Token where
  | openArr | closeArr | openObj | closeObj | comma | colon
  | null
  | bool (b : Bool)
  | num (n : Option Number)
  | str (s : Option String)
  /-- No token can be read here. -/
  | bad
deriving DecidableEq, Repr

/-! ## Numerals -/

/-- The parts of a number literal, the digits of each latest first. -/
structure Numeral where
  negative : Bool
  whole : List Nat
  fraction : Option (List Nat)
  /-- Whether the exponent is negative, and its digits. -/
  power : Option (Bool × List Nat)
deriving DecidableEq, Repr

namespace Numeral

/-- The first bound that a significand does not reach. -/
def bound : Nat := wordBound

/-- Appends digits to a significand for as long as it stays below the bound: the
significand, and how many digits were taken and left. -/
def absorb (s taken : Nat) : List Nat → Nat × Nat × Nat
  | [] => (s, taken, 0)
  | d :: ds =>
    if 10 * s + d < bound then absorb (10 * s + d) (taken + 1) ds
    else (s, taken, ds.length + 1)

/-- The number that the digits spell, latest first. -/
def natural (ds : List Nat) : Nat :=
  ds.foldr (fun d n => 10 * n + d) 0

/-- The floating point number of a literal; `none` if it is too great. An exponent past
31 bits gives zero or an overflow whatever else the literal says. -/
def toDouble? (n : Numeral) : Option Double :=
  let w := absorb 0 0 n.whole.reverse
  let f := absorb w.1 0 (n.fraction.getD []).reverse
  let place : Int := (w.2.2 : Int) - f.2.1
  let d? : Option Double :=
    match n.power with
    | none => Double.scaleDecimal f.1 place
    | some (negative, ds) =>
      let e := natural ds
      if 0x80000000 ≤ e then
        if f.1 ≠ 0 ∧ negative = false then none else some Double.zero
      else Double.scaleDecimal f.1 (if negative then place - e else place + e)
  d?.map fun d => if n.negative then d.negate else d

/-- The number of a literal. Without fraction and exponent it is an integer if it fits
64 bits; minus zero does not. -/
def toNumber? (n : Numeral) : Option Number :=
  match n.fraction, n.power with
  | none, none =>
    let i := natural n.whole
    if n.negative = false ∧ i < wordBound then some (.int i)
    else if n.negative ∧ 0 < i ∧ i ≤ signedBound then some (.int (-(i : Int)))
    else n.toDouble?.map .double
  | _, _ => n.toDouble?.map .double

end Numeral

/-! ## String literals -/

/-- The content of a string literal so far. -/
structure Literal where
  /-- The characters, latest first. -/
  done : List Char
  /-- Whether the content spells a text up to here. -/
  sound : Bool
  /-- The first half of a surrogate pair that waits for its second. -/
  high : Option Nat
deriving DecidableEq, Repr

namespace Literal

/-- Nothing yet. -/
def empty : Literal := ⟨[], true, none⟩

/-- One more character. -/
def push (l : Literal) (c : Char) : Literal :=
  if l.high.isSome then ⟨l.done, false, none⟩ else ⟨c :: l.done, l.sound, none⟩

/-- A part that is no character. -/
def spoil (l : Literal) : Literal :=
  ⟨l.done, false, none⟩

/-- One more 16-bit unit: a character, or half of a surrogate pair. -/
def pushUnit (l : Literal) (n : Nat) : Literal :=
  match l.high with
  | some high =>
    if 0xDC00 ≤ n ∧ n < 0xE000 then
      ⟨Char.ofNat (0x10000 + (high - 0xD800) * 0x400 + (n - 0xDC00)) :: l.done, l.sound, none⟩
    else l.spoil
  | none =>
    if 0xD800 ≤ n ∧ n < 0xDC00 then ⟨l.done, l.sound, some n⟩
    else if 0xDC00 ≤ n ∧ n < 0xE000 then l.spoil
    else l.push (Char.ofNat n)

/-- The text of a literal that spells one. -/
def toText? (l : Literal) : Option String :=
  if l.sound && l.high.isNone then some (String.ofList l.done.reverse) else none

end Literal

/-! ## Scanning -/

/-- How far a number literal has come. -/
inductive Phase where
  /-- After the minus sign. -/
  | sign
  /-- After a leading zero. -/
  | zero
  /-- In the digits of the whole part. -/
  | whole
  /-- After the point. -/
  | point
  /-- In the digits after the point. -/
  | fraction
  /-- After the exponent mark. -/
  | mark
  /-- After the sign of the exponent. -/
  | markSign
  /-- In the digits of the exponent. -/
  | power
deriving DecidableEq, Repr

/-- What the scanner is in the middle of. -/
inductive Mode where
  | idle
  | string (l : Literal)
  | escape (l : Literal)
  /-- In the digits of a `\u` escape: how many are left, and their value so far. -/
  | hex (left value : Nat) (l : Literal)
  /-- In a word: its characters to come, and the token it is. -/
  | word (rest : List Char) (t : Token)
  | number (p : Phase) (n : Numeral)
  | failed
deriving DecidableEq, Repr

/-- The value of a decimal digit. -/
def digit? (c : Char) : Option Nat :=
  if c.isDigit then some (c.toNat - 48) else none

/-- Whether blanks between tokens may hold the character. -/
def isSpace (c : Char) : Bool :=
  c == ' ' || c == '\n' || c == '\r' || c == '\t'

/-- The scanner between two characters: the tokens so far, latest first, and its mode. -/
structure Scan where
  tokens : List Token
  mode : Mode
deriving DecidableEq, Repr

namespace Scan

/-- The scanner once no token can be read. -/
def fail (ts : List Token) : Scan := ⟨.bad :: ts, .failed⟩

/-- A character between two tokens. -/
def start (ts : List Token) (c : Char) : Scan :=
  match c with
  | '[' => ⟨.openArr :: ts, .idle⟩
  | ']' => ⟨.closeArr :: ts, .idle⟩
  | '\x7b' => ⟨.openObj :: ts, .idle⟩
  | '\x7d' => ⟨.closeObj :: ts, .idle⟩
  | ',' => ⟨.comma :: ts, .idle⟩
  | ':' => ⟨.colon :: ts, .idle⟩
  | '"' => ⟨ts, .string .empty⟩
  | 'n' => ⟨ts, .word ['u', 'l', 'l'] .null⟩
  | 't' => ⟨ts, .word ['r', 'u', 'e'] (.bool true)⟩
  | 'f' => ⟨ts, .word ['a', 'l', 's', 'e'] (.bool false)⟩
  | '-' => ⟨ts, .number .sign ⟨true, [], none, none⟩⟩
  | c =>
    if isSpace c then ⟨ts, .idle⟩
    else match digit? c with
      | some d => ⟨ts, .number (if d = 0 then .zero else .whole) ⟨false, [d], none, none⟩⟩
      | none => fail ts

/-- A character after a backslash. -/
def escaped (ts : List Token) (l : Literal) (c : Char) : Scan :=
  match c with
  | '"' => ⟨ts, .string (l.push '"')⟩
  | '\\' => ⟨ts, .string (l.push '\\')⟩
  | '/' => ⟨ts, .string (l.push '/')⟩
  | 'b' => ⟨ts, .string (l.push '\x08')⟩
  | 'f' => ⟨ts, .string (l.push '\x0c')⟩
  | 'n' => ⟨ts, .string (l.push '\n')⟩
  | 'r' => ⟨ts, .string (l.push '\r')⟩
  | 't' => ⟨ts, .string (l.push '\t')⟩
  | 'u' => ⟨ts, .hex 3 0 l⟩
  | _ => fail ts

/-- The token of a complete number literal, and what the character after it does. -/
def endNumber (ts : List Token) (n : Numeral) (c : Char) : Scan :=
  start (.num n.toNumber? :: ts) c

/-- A character inside a number literal. -/
def numeral (ts : List Token) (p : Phase) (n : Numeral) (c : Char) : Scan :=
  match p, digit? c with
  | .sign, some d => ⟨ts, .number (if d = 0 then .zero else .whole) { n with whole := [d] }⟩
  | .sign, none => fail ts
  | .zero, some _ => fail ts
  | .whole, some d => ⟨ts, .number .whole { n with whole := d :: n.whole }⟩
  | .point, some d => ⟨ts, .number .fraction { n with fraction := some [d] }⟩
  | .point, none => fail ts
  | .fraction, some d =>
    ⟨ts, .number .fraction { n with fraction := some (d :: n.fraction.getD []) }⟩
  | .mark, some d => ⟨ts, .number .power { n with power := some (false, [d]) }⟩
  | .mark, none =>
    if c == '+' then ⟨ts, .number .markSign { n with power := some (false, []) }⟩
    else if c == '-' then ⟨ts, .number .markSign { n with power := some (true, []) }⟩
    else fail ts
  | .markSign, some d =>
    ⟨ts, .number .power { n with power := some ((n.power.getD (false, [])).1, [d]) }⟩
  | .markSign, none => fail ts
  | .power, some d =>
    let power := n.power.getD (false, [])
    ⟨ts, .number .power { n with power := some (power.1, d :: power.2) }⟩
  | .power, none => endNumber ts n c
  | .fraction, none =>
    if c == 'e' || c == 'E' then ⟨ts, .number .mark n⟩ else endNumber ts n c
  | _, none =>
    if c == '.' then ⟨ts, .number .point n⟩
    else if c == 'e' || c == 'E' then ⟨ts, .number .mark n⟩
    else endNumber ts n c

/-- One more unit of the text. -/
def step (s : Scan) (u : Option Char) : Scan :=
  match s.mode, u with
  | .failed, _ => s
  | .string l, none => ⟨s.tokens, .string l.spoil⟩
  | _, none => fail s.tokens
  | .idle, some c => start s.tokens c
  | .string l, some c =>
    if c == '"' then ⟨.str l.toText? :: s.tokens, .idle⟩
    else if c == '\\' then ⟨s.tokens, .escape l⟩
    else if c.toNat < 0x20 then fail s.tokens
    else ⟨s.tokens, .string (l.push c)⟩
  | .escape l, some c => escaped s.tokens l c
  | .hex left value l, some c =>
    match Text.hexDigit? c with
    | none => fail s.tokens
    | some d =>
      match left with
      | 0 => ⟨s.tokens, .string (l.pushUnit (16 * value + d))⟩
      | left + 1 => ⟨s.tokens, .hex left (16 * value + d) l⟩
  | .word [] t, some c => start (t :: s.tokens) c
  | .word (w :: rest) t, some c =>
    if c == w then
      if rest.isEmpty then ⟨t :: s.tokens, .idle⟩ else ⟨s.tokens, .word rest t⟩
    else fail s.tokens
  | .number p n, some c => numeral s.tokens p n c

/-- The tokens, once the text is at its end. -/
def finish (s : Scan) : List Token :=
  match s.mode with
  | .idle | .failed => s.tokens.reverse
  | .number .zero n | .number .whole n | .number .fraction n | .number .power n =>
    (.num n.toNumber? :: s.tokens).reverse
  | _ => (.bad :: s.tokens).reverse

end Scan

/-- The tokens of a text. -/
def Token.scan (us : List (Option Char)) : List Token :=
  (us.foldl Scan.step ⟨[], .idle⟩).finish

end Courier.Json
