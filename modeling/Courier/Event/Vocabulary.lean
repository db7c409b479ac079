import Courier.Json.Decode

/-!
# Closed enumerations

A `Vocabulary` gives every member of a finite type but one a token. The member without
token is the absent one: it is written as `null`, in JSON and in a column alike, and only
a null reads back as it. Its spelling is for messages and is no token.

All readers go through `Vocabulary.parse`.
-/

namespace Courier

/-- The tokens of a closed enumeration. -/
structure Vocabulary (α : Type) where
  /-- What a member is called in messages. -/
  noun : String
  /-- The member without token. -/
  absent : α
  /-- The spelling of the absent member. -/
  absentSpelling : String
  /-- The members with a token, in the order of the table. -/
  members : List α
  /-- The token of a member. -/
  token? : α → Option String

/-- Why a token gives no member. -/
inductive TokenError where
  /-- The token is not in the table. -/
  | unknown (noun token : String)
  /-- A stored value is not UTF-8. -/
  | notUtf8 (noun : String)
deriving DecidableEq, Repr

/-- The wording of a token error. -/
def TokenError.message : TokenError → String
  | .unknown noun token => "unknown " ++ noun ++ " " ++ Text.quote token
  | .notUtf8 noun => noun ++ " storage value is not valid UTF-8"

namespace Vocabulary

variable {α : Type} (voc : Vocabulary α)

/-- Every token with its member, in the order of the table. -/
def table : List (α × String) :=
  voc.members.filterMap fun v => (voc.token? v).map fun t => (v, t)

/-- The member with a token. -/
def parse? (token : String) : Option α :=
  (voc.table.find? fun e => e.2 == token).map (·.1)

/-- The member with a token, or what is wrong with it. -/
def parse (token : String) : Except TokenError α :=
  match voc.parse? token with
  | some v => .ok v
  | none => .error (.unknown voc.noun token)

/-- The spelling of a member in messages: its token, if it has one. -/
def spelling (v : α) : String :=
  (voc.token? v).getD voc.absentSpelling

/-- Whether a member is the one without token. -/
def isAbsent (v : α) : Bool :=
  (voc.token? v).isNone

/-! ## Columns -/

/-- The text a column holds for a member, null exactly for the absent one. -/
def toColumn (v : α) : Option String :=
  voc.token? v

/-- The member that a column holds. -/
def ofColumn : Option String → Except TokenError α
  | none => .ok voc.absent
  | some s => voc.parse s

/-- The member that a column given as bytes holds. -/
def ofColumnBytes : Option (List UInt8) → Except TokenError α
  | none => .ok voc.absent
  | some bytes =>
    match Utf8.decode? bytes with
    | none => .error (.notUtf8 voc.noun)
    | some cs => voc.parse (String.ofList cs)

/-! ## JSON -/

/-- A member as a JSON value. -/
def toValue (v : α) : Json.Value :=
  match voc.token? v with
  | none => .null
  | some t => .str t

/-- The member that a tree holds. -/
def decode : Json.Decoder α := fun t =>
  match Json.Decode.optional Json.Decode.text t with
  | .error f => .error f
  | .ok none => .ok voc.absent
  | .ok (some s) =>
    match voc.parse? s with
    | some v => .ok v
    | none => .error (.unknown voc.noun s)

end Vocabulary

end Courier
