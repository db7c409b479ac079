import Courier.Proofs.Store.History
import Courier.Store.Connection

/-!
# What a database remembers

A database takes an event if its table does (`insert_eq_ok_iff`). The event is what is fetched
under its id then, and the other ids are not touched (`fetch_insert`).
-/

namespace Courier.Store.Database

variable {d d' : Database} {id : EventId} {occurredAt recordedAt : Timestamp} {e : Event}

theorem insert_eq_ok_iff : d.insert id occurredAt recordedAt e = .ok d' ↔
    ∃ t t', d.table = some t ∧ d.objection? (Row.ofEvent id occurredAt recordedAt e) = none ∧
      t.insert id occurredAt recordedAt e = .ok t' ∧ d' = { d with table := some t' } := by
  unfold insert
  cases d.table with
  | none => simp
  | some t =>
    cases d.objection? (Row.ofEvent id occurredAt recordedAt e) with
    | some objection => simp
    | none =>
      cases ht : t.insert id occurredAt recordedAt e with
      | error reason => simp [Except.map, ht]
      | ok t' => simp [Except.map, ht, eq_comm]

/-- An event that is inserted is fetched under its id, and what is fetched under other ids is what
was fetched before. -/
theorem fetch_insert (h : d.insert id occurredAt recordedAt e = .ok d') :
    d'.fetch id = .ok (some ⟨id, occurredAt, recordedAt, e⟩) ∧
      ∀ id' ≠ id, d'.fetch id' = d.fetch id' := by
  obtain ⟨t, t', ht, -, hinsert, rfl⟩ := insert_eq_ok_iff.1 h
  refine ⟨Table.rowStore_faithful.fetchEvent_self hinsert, fun id' hne => ?_⟩
  unfold fetch
  rw [ht]
  exact Table.rowStore_faithful.fetchEvent_other hne hinsert

end Courier.Store.Database
