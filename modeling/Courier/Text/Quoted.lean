import Courier.Text.Hex
import Courier.Text.Hidden

/-!
# Quoted texts

`quote` writes a text between double quotes so that a reader of a message sees every
character: quotes and backslashes get a backslash, the common controls their letter,
and every other character that shows nothing by itself its number in braces.
-/

namespace Courier.Text

/-- How a quoted text writes one character. -/
def quoteChar (c : Char) : List Char :=
  match c with
  | '"' => ['\\', '"']
  | '\\' => ['\\', '\\']
  | '\n' => ['\\', 'n']
  | '\r' => ['\\', 'r']
  | '\t' => ['\\', 't']
  | '\x00' => ['\\', '0']
  | c => if isHidden c then ['\\', 'u', '\x7b'] ++ hexDigits c.toNat ++ ['\x7d'] else [c]

/-- A text between double quotes, with every character visible. -/
def quote (s : String) : String :=
  String.ofList ('"' :: s.toList.flatMap quoteChar ++ ['"'])

/-- Texts quoted and listed between square brackets. -/
def quoteList (ss : List String) : String :=
  "[" ++ ", ".intercalate (ss.map quote) ++ "]"

end Courier.Text
