import Courier.Event.Basic
import Courier.Text.Blank

/-!
# Events from the command line

A `SendRequest` holds the fields of an event as they are given on the command line.
`SendRequest.toEvent` makes the event. Tags are given as `KEY=VALUE`: the key is what
comes before the first `=`, without the blanks around it, and may not be blank; the value
is all the rest.
-/

namespace Courier

/-- The fields of an event as given on the command line. -/
structure SendRequest where
  name : String
  kind : Kind
  severity : Severity
  url : String
  /-- The tags, each as `KEY=VALUE`. -/
  tags : List String
  username : String
  message : String
  mute : Option Bool
  muteReason : String
deriving DecidableEq

/-- Why the fields make no event. -/
inductive SendRequestError where
  | invalidTag (tag : String)
  /-- There is a reason to mute but no word on muting. -/
  | reasonWithoutMute
deriving DecidableEq, Repr

/-- The wording of why fields make no event. -/
def SendRequestError.message : SendRequestError → String
  | .invalidTag tag => "invalid --tag " ++ Text.quote tag ++ "; expected KEY=VALUE"
  | .reasonWithoutMute => "--mute-reason requires --mute"

/-- The key and value of a tag given as `KEY=VALUE`. -/
def parseTag? (tag : String) : Option (String × String) :=
  let key := Text.trimList (tag.toList.takeWhile (· != '='))
  match tag.toList.dropWhile (· != '=') with
  | [] => none
  | _ :: value => if key.isEmpty then none else some (String.ofList key, String.ofList value)

namespace SendRequest

/-- An event with further tags. -/
def addTags (e : Event) : List String → Except SendRequestError Event
  | [] => .ok e
  | tag :: rest =>
    match parseTag? tag with
    | none => .error (.invalidTag tag)
    | some (key, value) => addTags (e.withTag key value) rest

/-- The event of a request. -/
def toEvent (r : SendRequest) : Except SendRequestError Event :=
  let e := ((((Event.bare r.name r.kind).withUrl r.url).withSeverity r.severity).withUsername
    r.username).withMessage r.message
  match addTags e r.tags with
  | .error reason => .error reason
  | .ok e =>
    match r.mute with
    | some muted => .ok (e.withMute muted r.muteReason)
    | none => if r.muteReason = "" then .ok e else .error .reasonWithoutMute

end SendRequest

end Courier
