import Courier.Event.Wire
import Courier.Exchange.Submission
import Courier.Text.Base64
import Courier.Url.Basic

/-!
# Endpoints and requests

An `Endpoint` is a base address of the server with the address below it that takes
events. `Endpoint.request` is the one request of a submission, and `Endpoint.submit` the
submission over a transport. `Credentials.sign?` adds what tells the server who sends it:
the name and password as HTTP basic credentials, and the name of the source as the user
agent.
-/

namespace Courier

/-- Why a text is no base address. -/
inductive EndpointError where
  | notAddress (base : String) (e : Url.ParseError)
  /-- The address has no path that could be extended. -/
  | noPath (base : String)
  | notExtended (address : String) (e : Url.ParseError)
deriving DecidableEq, Repr

/-- The wording of why a text is no base address. -/
def EndpointError.message : EndpointError → String
  | .notAddress base _ => "invalid notifications base url " ++ Text.quote base
  | .noPath base => "notifications base url " ++ Text.quote base ++ " cannot have a path"
  | .notExtended address _ => "invalid process-event url " ++ Text.quote address

/-- The wordings of what lies behind it. -/
def EndpointError.reasons : EndpointError → List String
  | .notAddress _ e | .notExtended _ e => [e.message]
  | .noPath _ => []

/-- Where events are sent. -/
structure Endpoint where
  base : Url
  /-- The address that takes events. -/
  processEvent : Url
deriving DecidableEq, Repr

namespace Endpoint

/-- The address that takes events, as text: the base address without the slashes at its
end, and a fixed segment. -/
def extend (base : Url) : String :=
  String.ofList (Text.dropEndWhile (· == '/') base.render ++ "/process-event".toList)

/-- The endpoint of a base address, host names being written in a certain form. -/
def ofBaseWith (form : Url.NameForm) (base : String) : Except EndpointError Endpoint :=
  match Url.parseWith form base with
  | .error e => .error (.notAddress base e)
  | .ok url =>
    if url.hasPath then
      match Url.parseWith form (extend url) with
      | .error e => .error (.notExtended (extend url) e)
      | .ok processEvent => .ok ⟨url, processEvent⟩
    else .error (.noPath base)

/-- The endpoint of a base address. -/
def ofBase (base : String) : Except EndpointError Endpoint :=
  ofBaseWith Url.domainToAscii base

/-- What a log shows of an endpoint. -/
def describe (e : Endpoint) : String :=
  "Client \x7b base_url: " ++ Text.quote e.base.toText ++ ", process_event_url: "
    ++ Text.quote e.processEvent.toText ++ ", .. \x7d"

end Endpoint

/-- A request. -/
structure Request where
  method : String
  url : Url
  /-- Names and values, by ascending name. -/
  headers : List (String × String)
  body : String
deriving DecidableEq, Repr

/-- The request that submits an event. -/
def Endpoint.request (e : Endpoint) (event : Event) : Request where
  method := "POST"
  url := e.processEvent
  headers := [("accept", "application/json"), ("content-type", "application/json")]
  body := event.toJson

/-! ## Submitting -/

/-- Executes requests: what a request meets, and what the transport is afterwards. A transport may
follow redirects, and then the answer that it finally gets is what the request meets. -/
abbrev Transport (σ : Type) := Request → StateM σ Exchange

namespace Endpoint

variable {σ : Type} (c : Endpoint) (t : Transport σ)

/-- A submission with a signal that comes after some milliseconds, or never: its result,
none if it never ends. -/
def submitUntil (signal : Option Nat) (e : Event) :
    StateM σ (Option (Except SubmitError Delivery)) :=
  if Exchange.isRequested signal then do
    let x ← t (c.request e)
    return x.resultUntil signal
  else return some (.error .cancelled)

/-- A submission that nothing ends early. -/
def submit (e : Event) : StateM σ (Option (Except SubmitError Delivery)) :=
  c.submitUntil t none e

end Endpoint

/-! ## Credentials -/

/-- Who sends a request. -/
structure Credentials where
  username : String
  password : String
  /-- The name of the source. -/
  clientName : String
deriving DecidableEq, Repr

namespace Credentials

/-- The name and version of this program, as servers see it. -/
def product : String := "nfy-client/0.0.1"

/-- What the user agent header says. -/
def userAgent (c : Credentials) : String :=
  c.clientName ++ " " ++ product

/-- What the authorization header says. -/
def authorization (c : Credentials) : String :=
  "Basic " ++ String.ofList (Base64.encode (Utf8.ofString (c.username ++ ":" ++ c.password)))

/-- Whether a text may be the value of a header: it holds no control but the tab. -/
def isHeaderValue (s : String) : Bool :=
  s.toList.all fun c => (0x20 ≤ c.toNat && c.toNat != 0x7F) || c == '\t'

/-- The request with the credentials; none if they make no legal header. -/
def sign? (c : Credentials) (r : Request) : Option Request :=
  if isHeaderValue c.userAgent then
    some { r with
      headers := r.headers.take 1 ++ [("authorization", c.authorization)] ++ r.headers.drop 1
        ++ [("user-agent", c.userAgent)] }
  else none

/-- What a log shows of credentials. -/
def describe (c : Credentials) : String :=
  "BasicAuthTransport \x7b username: " ++ Text.quote c.username
    ++ ", password: \"<REDACTED>\", user_agent: " ++ Text.quote c.userAgent ++ " \x7d"

end Credentials

end Courier
