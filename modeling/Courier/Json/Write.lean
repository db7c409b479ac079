import Courier.Decimal.Shortest
import Courier.Json.Value
import Courier.Text.Quoted

/-!
# Writing JSON

`Value.render` writes a value without blanks, the members of an object in the order
they have. Strings keep every character but quotes, backslashes and the controls below
U+0020, which have a letter of their own or four hexadecimal digits.
-/

namespace Courier.Json

/-- How a string literal writes one character. -/
def escapeChar (c : Char) : List Char :=
  match c with
  | '"' => ['\\', '"']
  | '\\' => ['\\', '\\']
  | '\x08' => ['\\', 'b']
  | '\x0c' => ['\\', 'f']
  | '\n' => ['\\', 'n']
  | '\r' => ['\\', 'r']
  | '\t' => ['\\', 't']
  | c =>
    if c.toNat < 0x20 then
      ['\\', 'u', '0', '0', Nat.digitChar (c.toNat / 16), Nat.digitChar (c.toNat % 16)]
    else [c]

/-- The literal of a text. -/
def renderText (s : String) : List Char :=
  '"' :: (s.toList.flatMap escapeChar ++ ['"'])

/-- The digits of an integer, after a minus sign if it is negative. -/
def renderInt (i : Int) : List Char :=
  if i < 0 then '-' :: Nat.toDigits 10 i.natAbs else Nat.toDigits 10 i.toNat

/-- The literal of a number: an integer in plain digits, a floating point number as its
shortest decimal, and none that is not finite. -/
def Number.render : Number → List Char
  | .int i => renderInt i
  | .double d => if d.isFinite then d.render else "null".toList

namespace Value

mutual
/-- The text of a value. -/
def render : Value → List Char
  | .null => "null".toList
  | .bool true => "true".toList
  | .bool false => "false".toList
  | .num n => n.render
  | .str s => renderText s
  | .arr [] => ['[', ']']
  | .arr (v :: rest) => '[' :: (v.render ++ renderItems rest)
  | .obj [] => ['\x7b', '\x7d']
  | .obj ((k, v) :: rest) =>
    '\x7b' :: (renderText k ++ ':' :: (v.render ++ renderMembers rest))

/-- The text of the items after the first, with the closing bracket. -/
def renderItems : List Value → List Char
  | [] => [']']
  | v :: rest => ',' :: (v.render ++ renderItems rest)

/-- The text of the members after the first, with the closing brace. -/
def renderMembers : List (String × Value) → List Char
  | [] => ['\x7d']
  | (k, v) :: rest => ',' :: (renderText k ++ ':' :: (v.render ++ renderMembers rest))
end

/-- The text of a value as a string. -/
def toText (v : Value) : String :=
  String.ofList v.render

end Value

end Courier.Json
