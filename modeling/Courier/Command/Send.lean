import Courier.Command.Report
import Courier.Config.Layers
import Courier.Config.Settings

/-!
# Sending an event

The command loads its settings, makes the event and a client, delivers the event, and
prints how; then it records the event, if it is asked to. What is wrong before the
delivery ends the command before any request.
-/

namespace Courier

namespace Settings

/-- How events are delivered under the settings. -/
def policy (s : Settings) : Policy :=
  ⟨.unfiltered, s.maxAttempts, s.timeout.map (1000 * ·)⟩

/-- Who sends events under the settings. -/
def credentials (s : Settings) : Credentials :=
  ⟨s.username, s.password, s.clientName⟩

end Settings

namespace Command

/-- Everything that a delivery needs. -/
structure Preparation where
  settings : Settings
  event : Event
  client : Client

/-- What a command that sends an event prepares. -/
def prepare (w : World) (configs : List String) (request : SendRequest) :
    Except Failure Preparation := do
  let config ← (Config.ofPaths w.file configs).mapError fun e => ⟨e.message, []⟩
  let settings ← (Settings.resolve config.value w.env).mapError fun e =>
    ⟨"resolving notification client settings failed", [e.message]⟩
  let event ← request.toEvent.mapError fun e => ⟨e.message, []⟩
  let endpoint ← (Endpoint.ofBase settings.url).mapError fun e => ⟨e.message, e.reasons⟩
  return ⟨settings, event, ⟨endpoint, settings.credentials⟩⟩

/-- The run that delivers the event. -/
def Preparation.run (p : Preparation) (w : World) : Run :=
  p.client.deliver p.settings.policy p.event (w.exchanges p.client.endpoint.processEvent)

/-- The word for a delivery. -/
def deliveryWord : Delivery → String
  | .accepted => "accepted"
  | .irrelevant => "irrelevant"

/-- What is printed of a delivery. -/
def deliveryLines (d : Delivery) (attempts : Nat) (e : Event) : List String :=
  ["delivery=" ++ deliveryWord d, "attempts=" ++ toString attempts,
    "rules_version=" ++ e.rulesVersion]

/-- The wordings of why a statement fails, outermost first. -/
def statementReasons : Store.StatementError → List String
  | .refused _ reason => ["error returned from database: " ++ reason, reason]
  | .unreadable e => e.message?.toList ++ [e.reason]

/-- The row that an event is recorded as. -/
def record (w : World) (e : Event) : Except Failure Store.Row := do
  let d ← (Store.connect w.env w.reach).mapError fun e => ⟨e.message, e.reasons⟩
  let _ ← (d.insert w.newId w.now w.now e).mapError fun e =>
    ⟨Store.insertMessage w.newId, statementReasons e⟩
  return Store.Row.ofEvent w.newId w.now w.now e

/-- What is done about recording the event of a delivery. -/
def reportRecord (w : World) (e : Event) : Report :=
  match record w e with
  | .error f => .ending (.failed f)
  | .ok row => ⟨[.record row, .print ("event_id=" ++ w.newId.text)], .done⟩

/-- What a run is reported as, its requests aside; the event of a delivery is recorded if
`recording`. -/
def reportEnding (w : World) (recording : Bool) : Ending → Report
  | .waiting => .ending .waiting
  | .failed e => .ending (.failed ⟨e.message, e.reasons⟩)
  | .delivered d attempts e =>
    let next := if recording then reportRecord w e else .ending .done
    next.after ((deliveryLines d attempts e).map .print)

/-- The command that sends an event. -/
def send (w : World) (configs : List String) (request : SendRequest) (recording : Bool) :
    Report :=
  match prepare w configs request with
  | .error f => .ending (.failed f)
  | .ok p =>
    (reportEnding w recording (p.run w).ending).after
      ((p.client.requests (p.run w)).map .request)

end Command

end Courier
