import Courier.Store.Migration
import Courier.Store.Table
import Courier.Url.Basic

/-!
# Reaching the database

The address of the database stands in a variable of the environment. `Database` is what
is behind the address.
-/

namespace Courier.Store

/-- The variable with the address of the database. -/
def addressVariable : String := "NFY_DATABASE_URL"

/-- A database. -/
structure Database where
  /-- The table of events, if it is there. -/
  table : Option Table
  applied : List Applied
  /-- What it answers when asked for the number one. -/
  one : Int
  /-- What it has against a row apart from a key that is taken. -/
  objection? : Row → Option StatementError := fun _ => none

/-- The state of a database. -/
structure Status where
  ok : Bool
  hasTable : Bool
deriving DecidableEq, Repr

/-- Why the database cannot be reached. -/
inductive ConnectError where
  | noAddress
  | badAddress (e : Url.ParseError)
  /-- The network gives a reason. -/
  | unreachable (reason : String)
deriving DecidableEq, Repr

namespace ConnectError

/-- The wording of an error. -/
def message : ConnectError → String
  | .noAddress => "missing env var " ++ addressVariable
  | .badAddress _ | .unreachable _ => "failed to connect to Postgres"

/-- The wording of the error of the database client, if it got to work. -/
def clientMessage? : ConnectError → Option String
  | .noAddress => none
  | .badAddress e => some ("error with configuration: " ++ e.message)
  | .unreachable reason => some ("error communicating with database: " ++ reason)

/-- The wordings of what lies behind an error, outermost first. -/
def reasons (e : ConnectError) : List String :=
  match e with
  | .noAddress => ["environment variable not found"]
  | .badAddress cause => e.clientMessage?.toList ++ [cause.message]
  | .unreachable reason => e.clientMessage?.toList ++ [reason]

end ConnectError

/-- The database at the address in the environment. `reach` is what lies behind an
address, or why it cannot be reached. -/
def connect (env : String → Option String) (reach : Url → Except String Database) :
    Except ConnectError Database :=
  match env addressVariable with
  | none => .error .noAddress
  | some address =>
    match Url.parse address with
    | .error e => .error (.badAddress e)
    | .ok url => (reach url).mapError .unreachable

namespace Database

variable (d : Database)

/-- The state of a database. -/
def status : Status :=
  ⟨d.one = 1, d.table.isSome⟩

/-- The database with every migration applied. -/
def migrate : Except MigrateError Database :=
  match pending migrations d.applied with
  | .error e => .error e
  | .ok ms => .ok { d with
      table := d.table <|> some .empty
      applied := d.applied ++ ms.map fun m => ⟨m.version, true, true⟩ }

/-- What a database says of a statement on a table that it does not have. -/
def noTable : StatementError :=
  .refused "42P01" "relation \"source_events\" does not exist"

/-- The database with the row of an event. -/
def insert (id : EventId) (occurredAt recordedAt : Timestamp) (e : Event) :
    Except StatementError Database :=
  match d.table, d.objection? (Row.ofEvent id occurredAt recordedAt e) with
  | none, _ => .error noTable
  | some _, some objection => .error objection
  | some t, none => (t.insert id occurredAt recordedAt e).map fun t => { d with table := some t }

/-- The recorded event of an id, if there is one. -/
def fetch (id : EventId) : Except StatementError (Option StoredEvent) :=
  match d.table with
  | none => .error noTable
  | some t => t.fetch id

end Database

end Courier.Store
