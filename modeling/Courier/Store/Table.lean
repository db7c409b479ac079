import Courier.Store.Row

/-!
# The table of recorded events

A `RowStore` is anything that takes rows by their ids and gives them back; events are
inserted and fetched through it as rows. A `Table` is a list of rows by the id they were
inserted under, at most one for each: an insertion under an id that is taken fails and
changes nothing.
-/

namespace Courier.Store

/-- Why a statement fails. -/
inductive StatementError where
  /-- The database refuses it. -/
  | refused (code reason : String)
  /-- A row that it gives cannot be read. -/
  | unreadable (e : RowError)
deriving DecidableEq, Repr

/-! ## Inserting and fetching events -/

/-- What keeps rows by their ids, in states of a type. -/
structure RowStore (σ : Type) where
  /-- The state with a row under an id, or why the row is refused. -/
  insert : σ → EventId → Row → Except StatementError σ
  /-- The row under an id. -/
  row? : σ → EventId → Option Row

namespace RowStore

variable {σ : Type} (g : RowStore σ) (s : σ)

/-- The state with the row of an event. -/
def insertEvent (id : EventId) (occurredAt recordedAt : Timestamp) (e : Event) :
    Except StatementError σ :=
  g.insert s id (Row.ofEvent id occurredAt recordedAt e)

/-- The recorded event of an id, if there is one. -/
def fetchEvent (id : EventId) : Except StatementError (Option StoredEvent) :=
  match g.row? s id with
  | none => .ok none
  | some row =>
    match row.toStored with
    | .error e => .error (.unreadable e)
    | .ok stored => .ok (some stored)

end RowStore

/-! ## Tables -/

/-- The rows of the store, each with its key. -/
structure Table where
  rows : List (EventId × Row)

namespace Table

/-- A table without rows. -/
def empty : Table := ⟨[]⟩

variable (t : Table)

/-- The row of an id. -/
def row? (id : EventId) : Option Row :=
  (t.rows.find? fun r => r.1 = id).map (·.2)

/-- The table with the row of an id, in place of the one it had. -/
def put (id : EventId) (row : Row) : Table :=
  ⟨(id, row) :: t.rows.filter fun r => r.1 ≠ id⟩

/-- What the database says of a key that is taken. -/
def duplicate : StatementError :=
  .refused "23505" "duplicate key value violates unique constraint \"source_events_pkey\""

/-- Tables keep rows, one for each id. -/
def rowStore : RowStore Table where
  insert t id row := if (t.row? id).isSome then .error duplicate else .ok (t.put id row)
  row? := row?

/-- The table with the row of an event. -/
def insert (id : EventId) (occurredAt recordedAt : Timestamp) (e : Event) :
    Except StatementError Table :=
  rowStore.insertEvent t id occurredAt recordedAt e

/-- The recorded event of an id, if there is one. -/
def fetch (id : EventId) : Except StatementError (Option StoredEvent) :=
  rowStore.fetchEvent t id

end Table

/-- What was being done when an insertion failed. -/
def insertMessage (id : EventId) : String :=
  "insert_event failed event_id=" ++ id.text

end Courier.Store
