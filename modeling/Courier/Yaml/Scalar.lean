import Courier.Text.Hex
import Courier.Text.Utf8
import Courier.Yaml.Node
import Courier.Yaml.Value

/-!
# What a text means

A plain text is null, a boolean or a number if it is spelled like one. A tag of the
standard can ask for one of these or for the text as it is; a tag of the document's own
stays with the value.
-/

namespace Courier.Yaml.Scalar

/-! ## Words -/

/-- Whether a text spells null. -/
def isNull (s : String) : Bool :=
  s == "null" || s == "Null" || s == "NULL" || s == "~"

/-- The boolean that a text spells. -/
def bool? (s : String) : Option Bool :=
  if s == "true" || s == "True" || s == "TRUE" then some true
  else if s == "false" || s == "False" || s == "FALSE" then some false
  else none

/-! ## Integers -/

/-- The number that digits of a base spell, at least one. -/
def digits? (base : Nat) (cs : List Char) : Option Nat :=
  if cs.isEmpty then none
  else cs.foldl (fun n c => do
    let d ← Text.hexDigit? c
    if d < base then return base * (← n) + d else none) (some 0)

/-- The base that two characters in front of the digits stand for. -/
def base? : List Char → Option (Nat × List Char)
  | '0' :: 'x' :: rest => some (16, rest)
  | '0' :: 'o' :: rest => some (8, rest)
  | '0' :: 'b' :: rest => some (2, rest)
  | _ => none

/-- Whether a text is digits behind a zero, which is no number. -/
def isZeroLed (cs : List Char) : Bool :=
  let cs := match cs with
    | '+' :: rest | '-' :: rest => rest
    | _ => cs
  cs.head? == some '0' && 1 < cs.length && cs.all (·.isDigit)

/-- The number of digits without a sign, in base ten or in the base they name. -/
def natural? (cs : List Char) : Option Nat :=
  match base? cs with
  | some (base, rest) => digits? base rest
  | none => digits? 10 cs

/-- The integer that a text spells, of any size. -/
def int? (cs : List Char) : Option Int :=
  if isZeroLed cs then none
  else
    match cs with
    | '-' :: rest => (natural? rest).map fun n => -(n : Int)
    | '+' :: rest => (natural? rest).map fun n => (n : Int)
    | _ => (natural? cs).map fun n => (n : Int)

/-! ## Floating point numbers -/

/-- The exponent that ends a numeral, zero if there is none. -/
def exponent? : List Char → Option Int
  | [] => some 0
  | e :: rest =>
    if e = 'e' ∨ e = 'E' then
      match rest with
      | '-' :: ds => (digits? 10 ds).map fun n => -(n : Int)
      | '+' :: ds => (digits? 10 ds).map fun n => (n : Int)
      | ds => (digits? 10 ds).map fun n => (n : Int)
    else none

/-- The number of a decimal numeral: digits, a point and digits, of which one side may be
missing, and an exponent. A number too great to be finite is none. -/
def decimal? (negative : Bool) (cs : List Char) : Option Double := do
  let whole := cs.takeWhile (·.isDigit)
  let rest := cs.dropWhile (·.isDigit)
  let (fraction, rest) := match rest with
    | '.' :: rest => (rest.takeWhile (·.isDigit), rest.dropWhile (·.isDigit))
    | _ => ([], rest)
  let n ← digits? 10 (whole ++ fraction)
  let e ← exponent? rest
  let d := Double.ofDecimal negative n (e - fraction.length)
  if d.isFinite then some d else none

/-- The floating point number that a text spells. -/
def double? (s : String) : Option Double :=
  if s == ".nan" || s == ".NaN" || s == ".NAN" then some Double.nan
  else
    let infinite (s : String) : Bool := s == ".inf" || s == ".Inf" || s == ".INF"
    match s.toList with
    | '-' :: rest =>
      if infinite (String.ofList rest) then some (Double.infinity true) else decimal? true rest
    | '+' :: rest =>
      if infinite (String.ofList rest) then some (Double.infinity false) else decimal? false rest
    | cs => if infinite s then some (Double.infinity false) else decimal? false cs

/-! ## Scalars -/

/-- The value of an integer; `none` if it has no place in 64 bits. -/
def ofInt? (i : Int) : Option Value :=
  if -(Json.signedBound : Int) ≤ i ∧ i < Json.wordBound then some (.int i) else none

/-- Whether an integer has a place in 128 bits. A greater one is read as a floating point
number. -/
def isWide (i : Int) : Bool :=
  -(Json.wordBound * Json.signedBound : Int) ≤ i && i < (Json.wordBound * Json.wordBound : Int)

/-- The value of a plain text. -/
def plain? (s : String) : Option Value :=
  if s.isEmpty || isNull s then some .null
  else
    match bool? s, int? s.toList with
    | some b, _ => some (.bool b)
    | none, some i => if isWide i then ofInt? i else wide
    | none, none => wide
where
  /-- The value of a text that spells none but a floating point number. -/
  wide : Option Value :=
    if isZeroLed s.toList then some (.str s)
    else some ((double? s).elim (.str s) .double)

/-- The tag of the standard with a name. -/
def standardTag (name : String) : Tag :=
  ("tag:yaml.org,2002:" ++ name).toUTF8.toList

/-- The key that shows a tag of the document's own: what follows its exclamation mark,
behind an exclamation mark. -/
def ownTag? : Tag → Option String
  | 33 :: rest =>
    (Utf8.decode? (if rest.isEmpty then [33] else rest)).map fun cs =>
      match cs with
      | '!' :: c :: cs => String.ofList ('!' :: c :: cs)
      | cs => String.ofList ('!' :: cs)
  | _ => none

/-- The value of a text with a tag of the standard or with none. -/
def untagged? (tag : Option Tag) (s : String) (plain : Bool) : Option Value :=
  match tag with
  | none => if plain then plain? s else some (.str s)
  | some t =>
    if t = standardTag "bool" then (bool? s).map .bool
    else if t = standardTag "int" then (int? s.toList).bind ofInt?
    else if t = standardTag "float" then (double? s).map .double
    else if t = standardTag "null" then (if isNull s then some .null else none)
    else if t.head? = some 33 ∧ plain then plain? s
    else some (.str s)

/-- The value of a text. -/
def value? (tag : Option Tag) (s : String) (plain : Bool) : Option Value :=
  match tag.bind ownTag? with
  | some t => (untagged? none s plain).map (.tagged t)
  | none => untagged? tag s plain

end Courier.Yaml.Scalar
