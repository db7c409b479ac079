import Courier.Event.Vocabulary

/-!
# Event kinds and severities

The two closed enumerations of an event. A kind says what happened to the object; a
severity says how bad it is, and severities are ordered by escalation.
-/

namespace Courier

/-- What happened to the object of an event. -/
inductive Kind where
  /-- Nothing known. -/
  | unknown
  | acknowledgementCleared
  | acknowledgementSet
  | custom
  | downtimeEnd
  | downtimeRemoved
  | downtimeStart
  | flappingEnd
  | flappingStart
  | incidentAge
  | mute
  | state
  | unmute
deriving DecidableEq, Repr, Inhabited

/-- The token of a kind. -/
def Kind.token? : Kind → Option String
  | .unknown => none
  | .acknowledgementCleared => some "acknowledgement-cleared"
  | .acknowledgementSet => some "acknowledgement-set"
  | .custom => some "custom"
  | .downtimeEnd => some "downtime-end"
  | .downtimeRemoved => some "downtime-removed"
  | .downtimeStart => some "downtime-start"
  | .flappingEnd => some "flapping-end"
  | .flappingStart => some "flapping-start"
  | .incidentAge => some "incident-age"
  | .mute => some "mute"
  | .state => some "state"
  | .unmute => some "unmute"

/-- The kinds of events. -/
def kinds : Vocabulary Kind where
  noun := "type"
  absent := .unknown
  absentSpelling := "unknown"
  members := [.acknowledgementCleared, .acknowledgementSet, .custom, .downtimeEnd,
    .downtimeRemoved, .downtimeStart, .flappingEnd, .flappingStart, .incidentAge, .mute,
    .state, .unmute]
  token? := Kind.token?

/-- How severe an event is. -/
inductive Severity where
  /-- No severity. -/
  | none
  | ok
  | debug
  | info
  | notice
  | warning
  | err
  | crit
  | alert
  | emerg
deriving DecidableEq, Repr, Inhabited

/-- The token of a severity. -/
def Severity.token? : Severity → Option String
  | .none => Option.none
  | .ok => some "ok"
  | .debug => some "debug"
  | .info => some "info"
  | .notice => some "notice"
  | .warning => some "warning"
  | .err => some "err"
  | .crit => some "crit"
  | .alert => some "alert"
  | .emerg => some "emerg"

/-- The severities of events. -/
def severities : Vocabulary Severity where
  noun := "severity"
  absent := .none
  absentSpelling := "none"
  members := [.ok, .debug, .info, .notice, .warning, .err, .crit, .alert, .emerg]
  token? := Severity.token?

/-- The place of a severity in the order of escalation. -/
def Severity.rank : Severity → Nat
  | .none => 0
  | .ok => 1
  | .debug => 2
  | .info => 3
  | .notice => 4
  | .warning => 5
  | .err => 6
  | .crit => 7
  | .alert => 8
  | .emerg => 9

instance : LE Severity := ⟨fun a b => a.rank ≤ b.rank⟩

instance : LT Severity := ⟨fun a b => a.rank < b.rank⟩

instance (a b : Severity) : Decidable (a ≤ b) := inferInstanceAs (Decidable (a.rank ≤ b.rank))

instance (a b : Severity) : Decidable (a < b) := inferInstanceAs (Decidable (a.rank < b.rank))

instance : Ord Severity := ⟨fun a b => compare a.rank b.rank⟩

end Courier
