import Courier.Exchange.Body
import Courier.Exchange.Status
import Courier.Rules.Snapshot

/-!
# One submission

An `Exchange` is one call of the transport with what comes of it and when. The transport
may follow redirects, so that a call can be more than one request on the wire; what counts
is the answer that it gives in the end. `Outcome.judge` says what an outcome means for the
event: it is delivered, or a `SubmitError` says why not. Among the errors only outdated rules
carry a snapshot, from a complete answer 412 within the size limit that can be decoded.

A submission may be given up: `Exchange.resultUntil` is its result when a signal comes at
a certain time, and the signal wins a tie.
-/

namespace Courier

/-- How the server took an event. -/
inductive Delivery where
  /-- Under the sender's rules version. -/
  | accepted
  /-- As of no interest. -/
  | irrelevant
deriving DecidableEq, Repr

/-- Why there is no complete response. -/
inductive TransportError where
  /-- The request could not be built; its address, once that is known, and the reasons,
  outermost first. -/
  | build (url : Option String) (reasons : List String)
  /-- The request could not be sent; the reasons, outermost first. -/
  | send (url : String) (reasons : List String)
  /-- The body broke off. -/
  | body
deriving DecidableEq, Repr

/-- The wording of a request's address in an error. -/
def TransportError.addressed (url : String) : String :=
  " for url (" ++ url ++ ")"

/-- The wording of a transport error. -/
def TransportError.message : TransportError → String
  | .build url _ => "builder error" ++ url.elim "" addressed
  | .send url _ => "error sending request" ++ addressed url
  | .body => "error decoding response body"

/-- The wording of what lies behind a transport error. -/
def TransportError.reasons : TransportError → List String
  | .build _ reasons | .send _ reasons => reasons
  | .body => []

/-- The status that a transport error carries. An error made of a status would have one; a request
that gets no answer and a body that breaks off do not. -/
def TransportError.status? : TransportError → Option Nat
  | .build .. | .send .. | .body => none

/-- Why the body of an answer 412 is no snapshot. -/
inductive BadSnapshot where
  | tooLong (limit : Nat)
  | undecodable (fault : Json.Fault)
  /-- A reason given in words. -/
  | stated (reason : String)
deriving DecidableEq, Repr

/-- A reason without a position in a text at its end, which is no part of it: the words
`at line` and `column`, each with a number. -/
def dropPosition (reason : String) : String :=
  let column := reason.toList.reverse
  let line := (column.dropWhile Char.isDigit)
  let before := (line.drop " column ".length).dropWhile Char.isDigit
  if column.head?.any Char.isDigit
      && line.take " column ".length == " column ".toList.reverse
      && ((line.drop " column ".length).head?.any Char.isDigit)
      && before.take " at line ".length == " at line ".toList.reverse then
    String.ofList (before.drop " at line ".length).reverse
  else reason

/-- The wording of why a body is no snapshot. -/
def BadSnapshot.message : BadSnapshot → String
  | .tooLong limit =>
    "rules snapshot exceeds " ++ String.ofList (Nat.toDigits 10 limit) ++ " bytes"
  | .undecodable fault => fault.message
  | .stated reason => dropPosition reason

/-- Why a submission did not end in a delivery. -/
inductive SubmitError where
  /-- The event could not be written. -/
  | encode (reason : String)
  | transport (e : TransportError)
  | cancelled
  /-- The sender's rules are outdated; these are the server's. -/
  | rulesOutdated (s : Snapshot)
  /-- The sender's rules are outdated, but the server sent no snapshot. -/
  | protocol (e : BadSnapshot)
  | unexpectedStatus (code : Nat) (body : String)
deriving DecidableEq

namespace SubmitError

/-- The wording of a submission error. -/
def message : SubmitError → String
  | .encode reason => "cannot encode event: " ++ dropPosition reason
  | .transport e => "cannot submit event: " ++ e.message
  | .cancelled => "event submission cancelled"
  | .rulesOutdated s => "rules outdated: server rules version is " ++ Text.quote s.version
  | .protocol e =>
    "server reported outdated rules but sent an undecodable snapshot: " ++ e.message
  | .unexpectedStatus code body =>
    "unexpected HTTP status " ++ Status.describe code ++ (if body = "" then "" else ": " ++ body)

/-- The wordings of what lies behind a submission error, outermost first. -/
def reasons : SubmitError → List String
  | .encode reason => [dropPosition reason]
  | .transport e => e.message :: e.reasons
  | .protocol e => [e.message]
  | _ => []

/-- The status that the error came with, if there was a response. -/
def status? : SubmitError → Option Nat
  | .rulesOutdated _ | .protocol _ => some Status.preconditionFailed
  | .unexpectedStatus code _ => some code
  | .transport e => e.status?
  | .encode _ | .cancelled => none

/-- The snapshot that the error carries. -/
def snapshot? : SubmitError → Option Snapshot
  | .rulesOutdated s => some s
  | _ => none

end SubmitError

/-! ## Outcomes -/

/-- The greatest length of a snapshot. -/
def maxSnapshotBytes : Nat := 16777216

/-- How much of an error body is kept. -/
def maxErrorBodyBytes : Nat := 1048576

/-- A response. -/
structure Response where
  status : Nat
  body : Body
deriving Repr

/-- What comes of a request. -/
inductive Outcome where
  | failed (e : TransportError)
  | answered (r : Response)
deriving Repr

/-- What a body of an answer 412 means. -/
def Body.judgeSnapshot (limit : Nat) (b : Body) : SubmitError :=
  match (b.readLimited limit).1 with
  | .tooLong => .protocol (.tooLong limit)
  | .broken => .transport .body
  | .whole bytes =>
    match Snapshot.ofJson bytes with
    | .error fault => .protocol (.undecodable fault)
    | .ok s => .rulesOutdated s

/-- What a response means for the event. -/
def Response.judge (r : Response) : Except SubmitError Delivery :=
  if r.status = Status.preconditionFailed then .error (r.body.judgeSnapshot maxSnapshotBytes)
  else if Status.isSuccess r.status then .ok .accepted
  else if r.status = Status.notAcceptable then .ok .irrelevant
  else
    .error (.unexpectedStatus r.status
      (Body.excerpt (Body.readCapped maxErrorBodyBytes [] r.body.chunks).1))

/-- What an outcome means for the event. -/
def Outcome.judge : Outcome → Except SubmitError Delivery
  | .failed e => .error (.transport e)
  | .answered r => r.judge

/-! ## Time -/

/-- One call of the transport with its outcome. The transport may follow redirects with further
requests of its own; the outcome is the answer that it finally gives. -/
structure Exchange where
  outcome : Outcome
  /-- The milliseconds from the call to the outcome; none if it never comes. -/
  duration : Option Nat
deriving Repr

namespace Exchange

/-- The result of a submission that nothing ends early; none if it never ends. -/
def result (x : Exchange) : Option (Except SubmitError Delivery) :=
  x.duration.map fun _ => x.outcome.judge

/-- The result of a submission with a signal that comes after some milliseconds, or
never. -/
def resultUntil (signal : Option Nat) (x : Exchange) : Option (Except SubmitError Delivery) :=
  match signal with
  | none => x.result
  | some time =>
    if x.duration.all (time ≤ ·) then some (.error .cancelled) else x.result

/-- Whether the request is made at all: not if the signal is there from the start. -/
def isRequested (signal : Option Nat) : Bool :=
  signal != some 0

/-- The signal of a timeout. It takes some time in any case. -/
def deadline (timeout : Nat) : Nat :=
  max timeout 1

end Exchange

end Courier
