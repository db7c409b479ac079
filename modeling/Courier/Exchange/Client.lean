import Courier.Exchange.Endpoint
import Courier.Exchange.Reconcile

/-!
# Clients

A `Client` sends events to an endpoint under its credentials. Some clients can make no
request at all: their credentials make no legal header, or the address is not one of the
web. Each of their submissions fails before anything is sent.
-/

namespace Courier

/-- Where events are sent, and as whom. -/
structure Client where
  endpoint : Endpoint
  credentials : Credentials
deriving DecidableEq, Repr

namespace Client

variable (c : Client)

/-- Why the client can make no request, if it cannot. -/
def refusal? : Option TransportError :=
  let url := c.endpoint.processEvent
  if !Credentials.isHeaderValue c.credentials.userAgent then
    some (.build none ["failed to parse header value"])
  else if url.scheme = "http".toList ∨ url.scheme = "https".toList then none
  else some (.build (some url.toText) ["URL scheme is not allowed"])

/-- The request that submits an event, if the client can make one. -/
def request? (e : Event) : Option Request :=
  match c.refusal? with
  | some _ => none
  | none => c.credentials.sign? (c.endpoint.request e)

/-- The exchanges of a client's submissions, where those of its requests are given. Each is one call
of the transport with the answer that it finally gives, redirects included. -/
def exchanges (xs : List Exchange) : List Exchange :=
  match c.refusal? with
  | none => xs
  | some e => [⟨.failed e, some 0⟩]

/-- The run that delivers an event, the client's requests meeting the exchanges in
order. -/
def deliver (p : Policy) (e : Event) (xs : List Exchange) : Run :=
  p.deliver e (c.exchanges xs)

/-- The requests of a run. -/
def requests (r : Run) : List Request :=
  r.sent.filterMap c.request?

end Client

end Courier
