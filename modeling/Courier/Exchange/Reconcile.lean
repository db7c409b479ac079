import Courier.Exchange.Submission
import Courier.Rules.Matcher

/-!
# Delivery by reconciliation

An event is submitted until it is delivered. After an answer with outdated rules the
event takes the version of the server's snapshot and the ids of the rules in it that
apply, and is submitted again, up to a bound on the number of submissions; any other
error ends the run.

`Policy.advance` is what one exchange does to a run, `Policy.deliver` a whole run over
the exchanges that its requests meet. A run records the event of every request it makes.

The order in which a run visits the rules of a snapshot is open, and may change from one
attempt to the next. `Policy.advanceIn` and `Policy.deliverIn` take a `Visit` that says it;
`Policy.advance` and `Policy.deliver` are these with ascending keys.
-/

namespace Courier

/-- Why a run ends without a delivery. -/
inductive DeliverError where
  /-- A submission failed. -/
  | submission (attempt : Nat) (e : SubmitError)
  /-- The rules could not be evaluated. -/
  | matching (e : MatchError)
  /-- The last submission allowed met outdated rules, too. -/
  | notConverged (attempts : Nat) (version : String)
deriving DecidableEq

namespace DeliverError

/-- The wording of a failed run. -/
def message : DeliverError → String
  | .submission attempt _ =>
    "event submission failed on attempt " ++ String.ofList (Nat.toDigits 10 attempt)
  | .matching _ => "re-evaluating rules against fresh snapshot failed"
  | .notConverged attempts version =>
    "RULES_NOT_CONVERGED: rules version still outdated after "
      ++ String.ofList (Nat.toDigits 10 attempts) ++ " attempt(s); last seen version "
      ++ Text.quote version

/-- The wordings of what lies behind a failed run, outermost first. -/
def reasons : DeliverError → List String
  | .submission _ e => e.message :: e.reasons
  | .matching e => [e.message, e.reason]
  | .notConverged .. => []

end DeliverError

/-- How a run ends. -/
inductive Ending where
  /-- Delivered with the last of the submissions counted, which carried the event. -/
  | delivered (delivery : Delivery) (attempts : Nat) (event : Event)
  | failed (e : DeliverError)
  /-- The last request meets no answer. -/
  | waiting
deriving DecidableEq

/-- A run: the events of its requests in order, and its end. -/
@[ext]
structure Run where
  sent : List Event
  ending : Ending
deriving DecidableEq

/-- What an exchange does to a run. -/
inductive Progress where
  /-- The event of the next request. -/
  | submitting (e : Event)
  | ended (ending : Ending)
deriving DecidableEq

/-- How runs are made. -/
structure Policy where
  matcher : Matcher
  /-- The bound on submissions; zero counts as one. -/
  maxAttempts : Nat
  /-- The milliseconds for each submission, if they are bounded. -/
  timeout : Option Nat

namespace Policy

variable (p : Policy)

/-- The number of submissions allowed. -/
def bound : Nat := max p.maxAttempts 1

/-! ## Runs in a given order of visiting -/

section

variable (v : Visit)

/-- What the exchange of the `attempt`-th request, which carried `e`, does to a run. The rules of a
snapshot are visited in the order for this attempt. -/
def advanceIn (attempt : Nat) (e : Event) (x : Exchange) : Progress :=
  match x.resultUntil (p.timeout.map Exchange.deadline) with
  | none => .ended .waiting
  | some (.ok delivery) => .ended (.delivered delivery attempt e)
  | some (.error (.rulesOutdated s)) =>
    match e.reconcileAmong s p.matcher (v.rules attempt s) with
    | .error reason => .ended (.failed (.matching reason))
    | .ok e' =>
      if attempt < p.bound then .submitting e'
      else .ended (.failed (.notConverged p.bound e'.rulesVersion))
  | some (.error reason) => .ended (.failed (.submission attempt reason))

/-- The run from the `attempt`-th request on, which carries `e`. -/
def runIn (attempt : Nat) (e : Event) : List Exchange → Run
  | [] => ⟨[e], .waiting⟩
  | x :: xs =>
    match p.advanceIn v attempt e x with
    | .ended ending => ⟨[e], ending⟩
    | .submitting e' =>
      let rest := runIn (attempt + 1) e' xs
      ⟨e :: rest.sent, rest.ending⟩

/-- The run that delivers an event, its requests meeting the exchanges in order. -/
def deliverIn (e : Event) (xs : List Exchange) : Run :=
  p.runIn v 1 e xs

end

/-! ## Runs -/

/-- What an exchange does to a run that visits the rules by ascending key. -/
def advance (attempt : Nat) (e : Event) (x : Exchange) : Progress :=
  p.advanceIn .ascending attempt e x

/-- The run from the `attempt`-th request on, the rules visited by ascending key. -/
def runFrom (attempt : Nat) (e : Event) (xs : List Exchange) : Run :=
  p.runIn .ascending attempt e xs

/-- The run that delivers an event, the rules visited by ascending key. -/
def deliver (e : Event) (xs : List Exchange) : Run :=
  p.runFrom 1 e xs

end Policy

end Courier
