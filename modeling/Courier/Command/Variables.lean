import Courier.Dict
import Courier.Text.Alphanumeric
import Courier.Text.Blank
import Courier.Text.Utf8

/-!
# Variables from a file

A file of variables has a name, an equals sign and a value on each line, perhaps after
the word `export`. Values may be quoted, also over several lines, and refer to other
variables; a number sign after a blank starts a comment. The file is read up to its first
error.

A variable of the environment is not replaced by one of the file, and of two in the file
the first one counts.
-/

namespace Courier.Variables

/-! ## Lines -/

/-- Where the end of a line stands with respect to quotes. -/
inductive Quoting where
  /-- Outside quotes. -/
  | plain
  /-- After a blank outside quotes. -/
  | blank
  | escape
  | double
  | doubleEscape
  | single
  | singleEscape
deriving DecidableEq

/-- What a character does outside quotes. -/
def Quoting.open (c : Char) : Quoting :=
  if c = '\\' then .escape else if c = '"' then .double else if c = '\'' then .single else .plain

/-- What a character does. -/
def Quoting.step (c : Char) : Quoting → Quoting
  | .plain => if Text.isBlank c && c != '\n' && c != '\r' then .blank else Quoting.open c
  | .blank => Quoting.open c
  | .escape => .plain
  | .double => if c = '\\' then .doubleEscape else if c = '"' then .plain else .double
  | .doubleEscape => .double
  | .single => if c = '\\' then .singleEscape else if c = '\'' then .plain else .single
  | .singleEscape => .single

/-- Whether a line starts with a comment. -/
def isComment (line : List Char) : Bool :=
  (line.dropWhile Text.isBlank).head? == some '#'

/-- What ends a line that is being read. -/
inductive LineEnd where
  /-- Its last character. -/
  | whole
  /-- A comment. -/
  | comment
  /-- Nothing: it goes on in the next line, with the quoting given. -/
  | open (q : Quoting)

/-- Reads a physical line, latest characters first; gives the line without its comment. -/
def readLine (q : Quoting) (done : List Char) : List Char → List Char × LineEnd
  | [] => (done, if q = .plain then .whole else .open q)
  | c :: rest =>
    if q = .blank && c == '#' then (done, .comment) else readLine (q.step c) (c :: done) rest

/-- The characters of the first physical line, with its end, and the rest. -/
def splitLine : List Char → List Char × List Char
  | [] => ([], [])
  | '\n' :: rest => (['\n'], rest)
  | c :: rest => let (line, rest) := splitLine rest; (c :: line, rest)

/-- A line without its line end. -/
def dropLineEnd (latestFirst : List Char) : List Char :=
  match latestFirst with
  | '\n' :: '\r' :: rest | '\n' :: rest => rest.reverse
  | cs => cs.reverse

/-- The logical lines of a text, `none` in the place of the first that is not complete.
`done` is what there is of the present one, latest first. `fuel` bounds the number of
physical lines. -/
def lines (q : Quoting) (done : List Char) : Nat → List Char → List (Option (List Char))
  | 0, _ => []
  | fuel + 1, text =>
    match splitLine text with
    | ([], _) => if q = .plain then [] else [none]
    | (line, rest) =>
      if isComment (done.reverse ++ line) then lines .plain [] fuel rest
      else
        match readLine q done line with
        | (cs, .whole) => some (dropLineEnd cs) :: lines .plain [] fuel rest
        | (cs, .comment) => some cs.reverse :: lines .plain [] fuel rest
        | (cs, .open q) => lines q cs fuel rest

/-! ## Values -/

/-- How a reference to a variable is written. -/
inductive Reference where
  /-- After a dollar sign. -/
  | bare
  /-- Between braces. -/
  | braced
deriving DecidableEq

/-- A value that is being read. -/
structure Value where
  /-- The value so far, latest character first. -/
  done : List Char
  single : Bool
  double : Bool
  escaped : Bool
  /-- Whether only a comment may follow. -/
  ended : Bool
  /-- The reference that is being read, its name latest first. -/
  reference : Option (Reference × List Char)

namespace Value

/-- A value before its first character. -/
def start : Value := ⟨[], false, false, false, false, none⟩

/-- The value with the value of the variable referred to. -/
def substitute (lookup : String → String) (v : Value) : Value :=
  match v.reference with
  | none => v
  | some (_, name) =>
    { v with
      done := (lookup (String.ofList name.reverse)).toList.reverse ++ v.done
      reference := none }

/-- The character that an escape stands for. -/
def unescape? (c : Char) : Option Char :=
  if c = 'n' then some '\n'
  else if c = '\\' ∨ c = '\'' ∨ c = '"' ∨ c = '$' ∨ c = ' ' then some c
  else none

/-- A character outside single quotes and references. -/
def plainStep (v : Value) (c : Char) : Value :=
  if c = '$' then { v with reference := some (.bare, []) }
  else if v.double then
    if c = '"' then { v with double := false }
    else if c = '\\' then { v with escaped := true }
    else { v with done := c :: v.done }
  else if c = '\'' then { v with single := true }
  else if c = '"' then { v with double := true }
  else if c = '\\' then { v with escaped := true }
  else if c = ' ' ∨ c = '\t' then { v with ended := true }
  else { v with done := c :: v.done }

/-- A character of a reference, whose name has letters and digits. -/
def referenceStep (lookup : String → String) (v : Value) (r : Reference) (name : List Char)
    (c : Char) : Value :=
  if Text.isAlphanumeric c then { v with reference := some (r, c :: name) }
  else
    match r with
    | .braced =>
      if c = '\x7d' then v.substitute lookup else { v with reference := some (r, c :: name) }
    | .bare =>
      if c = '\x7b' ∧ name.isEmpty then { v with reference := some (.braced, []) }
      else
        let v := v.substitute lookup
        if c = '$' then { v with reference := some (.bare, []) }
        else { v with done := c :: v.done }

/-- Reads the value of a line; a comment ends it. -/
def read? (lookup : String → String) (v : Value) : List Char → Option String
  | [] =>
    if v.single || v.double || v.reference.any (·.1 = .braced) then none
    else some (String.ofList (v.substitute lookup).done.reverse)
  | c :: rest =>
    if v.ended then
      if c = ' ' ∨ c = '\t' then read? lookup v rest
      else if c = '#' then read? lookup v []
      else none
    else if v.escaped then
      match unescape? c with
      | none => none
      | some d => read? lookup { v with done := d :: v.done, escaped := false } rest
    else if v.single then
      if c = '\'' then read? lookup { v with single := false } rest
      else read? lookup { v with done := c :: v.done } rest
    else
      match v.reference with
      | some (r, name) => read? lookup (v.referenceStep lookup r name c) rest
      | none => read? lookup (v.plainStep c) rest
termination_by cs => cs.length

end Value

/-! ## Files -/

/-- The name at the start of a line: a letter or an underscore, then letters, digits,
underscores and points. -/
def name? (line : List Char) : Option (String × List Char) :=
  match line with
  | [] => none
  | c :: _ =>
    if c.isAlpha || c == '_' then
      let isName (c : Char) : Bool := c.isAlphanum || c == '_' || c == '.'
      some (String.ofList (line.takeWhile isName),
        (line.dropWhile isName).dropWhile Text.isBlank)
    else none

/-- What follows an equals sign. -/
def afterEquals? (line : List Char) : Option (List Char) :=
  match line with
  | '=' :: rest => some (rest.dropWhile Text.isBlank)
  | _ => none

/-- A name and what follows its equals sign. The word `export` may come first; with an
equals sign after it, it is a name. -/
def assignment? (line : List Char) : Option (String × List Char) := do
  let (name, rest) ← name? line
  if name = "export" ∧ (afterEquals? rest).isNone then
    let (name, rest) ← name? rest
    return (name, ← afterEquals? rest)
  else return (name, ← afterEquals? rest)

/-- The variables of logical lines up to the first error, latest first, after those in
`done`. `env` holds the variables of the environment. -/
def readLines (env : String → Option String) (done : List (String × String)) :
    List (Option (List Char)) → List (String × String)
  | [] => done
  | none :: _ => done
  | some line :: rest =>
    let line := Text.trimList line
    if line.isEmpty || line.head? == some '#' then readLines env done rest
    else
      let lookup (name : String) : String :=
        ((env name) <|> Entries.get? name done.reverse).getD ""
      match assignment? line with
      | none => done
      | some (name, value) =>
        if value.isEmpty || value.head? == some '#' then
          readLines env ((name, "") :: done) rest
        else
          match Value.start.read? lookup value with
          | none => done
          | some s => readLines env ((name, s) :: done) rest

/-- The text of a file, up to the first line that is not UTF-8. -/
def validText (bytes : List UInt8) : List Char :=
  let good := (Utf8.units bytes).takeWhile (·.isSome)
  let cs := good.filterMap fun c => c
  let cs := if cs.head? == some '\uFEFF' then cs.drop 1 else cs
  if good.length = (Utf8.units bytes).length then cs
  else Text.dropEndWhile (· != '\n') cs

/-- The environment with the variables of a file. -/
def extend (env : String → Option String) (file : List UInt8) (name : String) :
    Option String :=
  let text := validText file
  let found := readLines env [] (lines .plain [] (text.length + 1) text)
  env name <|> Entries.get? name found.reverse

end Courier.Variables
