import Courier.Json.Token
import Courier.Text.Utf8

/-!
# What can be read of a JSON text

A `Tree` is a JSON value as far as its text is well formed. It ends at the first place
where the text cannot go on: there stands `Tree.broken` if a value had to come, and the
containers around the place are not closed. A reader that walks a tree from left to
right therefore meets what is wrong with the text and what is wrong with the value in
the order of the text.

`Document.ofTokens` builds the tree with a stack of open containers, so that depth costs
no recursion. A container that is closed holds no broken place.
-/

namespace Courier.Json

/-- A JSON value, up to the first place where its text is malformed. -/
inductive Tree where
  | null
  | bool (b : Bool)
  /-- A number, `none` if it is out of range. -/
  | num (n : Option Number)
  /-- A string, `none` if its literal spells no text. -/
  | str (s : Option String)
  | arr (items : List Tree) (closed : Bool)
  | obj (members : List (Option String × Tree)) (closed : Bool)
  /-- A place where a value had to come and none can be read. -/
  | broken
deriving Inhabited, Repr

/-- Whether the text of the whole value is well formed. -/
def Tree.isClosed : Tree → Bool
  | .arr _ closed => closed
  | .obj _ closed => closed
  | .broken => false
  | _ => true

/-- A text: its value, and whether nothing follows the value. -/
structure Document where
  root : Tree
  ended : Bool
deriving Inhabited, Repr

namespace Document

/-- A container whose end has not come yet, its parts latest first. -/
inductive Frame where
  | arr (items : List Tree)
  | obj (members : List (Option String × Tree))
  /-- An object after a key. -/
  | member (members : List (Option String × Tree)) (key : Option String)

/-- Where the text stands in the innermost open container. -/
inductive Place where
  /-- Right after its opening bracket, or after a key. -/
  | opened
  /-- Where something has to come: after a comma or a colon, or at the start. -/
  | next
  /-- After an item or member. -/
  | filled
deriving DecidableEq

/-- What one token does. -/
inductive Step where
  | running (frames : List Frame) (place : Place)
  /-- The outermost value is complete. -/
  | finished (root : Tree)
  | failed

/-- A complete value in the innermost open container. -/
def put (t : Tree) : List Frame → Step
  | [] => .finished t
  | .arr items :: frames => .running (.arr (t :: items) :: frames) .filled
  | .member members key :: frames => .running (.obj ((key, t) :: members) :: frames) .filled
  | .obj _ :: _ => .failed

/-- Whether a value may come. -/
def awaitsValue : List Frame → Place → Bool
  | [], _ => true
  | .arr _ :: _, place => place != .filled
  | .member .. :: _, place => place == .next
  | .obj _ :: _, _ => false

/-- A scalar, where a value may come. -/
def scalar (frames : List Frame) (place : Place) (t : Tree) : Step :=
  if awaitsValue frames place then put t frames else .failed

/-- What a token does in the innermost open container. -/
def step (frames : List Frame) (place : Place) : Token → Step
  | .openArr => if awaitsValue frames place then .running (.arr [] :: frames) .opened else .failed
  | .openObj => if awaitsValue frames place then .running (.obj [] :: frames) .opened else .failed
  | .closeArr =>
    match frames, place with
    | .arr _ :: _, .next => .failed
    | .arr items :: frames, _ => put (.arr items.reverse true) frames
    | _, _ => .failed
  | .closeObj =>
    match frames, place with
    | .obj _ :: _, .next => .failed
    | .obj members :: frames, _ => put (.obj members.reverse true) frames
    | _, _ => .failed
  | .comma =>
    match frames, place with
    | .arr _ :: _, .filled | .obj _ :: _, .filled => .running frames .next
    | _, _ => .failed
  | .colon =>
    match frames, place with
    | .member .. :: _, .opened => .running frames .next
    | _, _ => .failed
  | .str s =>
    match frames, place with
    | .obj _ :: _, .filled => .failed
    | .obj members :: frames, _ => .running (.member members s :: frames) .opened
    | _, _ => scalar frames place (.str s)
  | .null => scalar frames place .null
  | .bool b => scalar frames place (.bool b)
  | .num n => scalar frames place (.num n)
  | .bad => .failed

/-- The tree of the open containers around a part that is cut off. -/
def close (t : Tree) : List Frame → Tree
  | [] => t
  | .arr items :: frames => close (.arr (t :: items).reverse false) frames
  | .member members key :: frames => close (.obj ((key, t) :: members).reverse false) frames
  | .obj members :: frames => close (.obj members.reverse false) frames

/-- The tree of a text that cannot go on. -/
def cut (frames : List Frame) (place : Place) : Tree :=
  match frames, place with
  | .arr items :: frames, .filled => close (.arr items.reverse false) frames
  | frames, _ => close .broken frames

/-- The document of the tokens that follow. -/
def build (frames : List Frame) (place : Place) : List Token → Document
  | [] => ⟨cut frames place, false⟩
  | t :: rest =>
    match step frames place t with
    | .running frames place => build frames place rest
    | .finished root => ⟨root, rest.isEmpty⟩
    | .failed => ⟨cut frames place, false⟩

/-- The document of a text's tokens. -/
def ofTokens (ts : List Token) : Document :=
  build [] .next ts

/-- The document of a text given as bytes. -/
def ofBytes (bytes : List UInt8) : Document :=
  ofTokens (Token.scan (Utf8.units bytes))

end Document

end Courier.Json
