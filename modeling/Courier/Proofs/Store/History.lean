import Courier.Proofs.Store.Row
import Courier.Store.Table
import Mathlib.Data.List.Induction

/-!
# What a store remembers

A store is faithful if it keeps the rows it takes, leaves the others alone and takes no second
row under an id (`RowStore.Faithful`). `RowStore.history` is what a sequence of calls is answered.

After any calls a faithful store remembers the first insertion of each id that succeeded, and
nothing under the other ids (`remembers_history`, from one call by `Remembers.answer`). So every
fetch gives the event that was inserted first, and an insertion under an id that is taken fails
without a trace (`history_remembers`).
-/

namespace Courier.Store

/-! ## Calls -/

/-- A call on a store of events. -/
inductive Call where
  | insert (id : EventId) (occurredAt recordedAt : Timestamp) (e : Event)
  | fetch (id : EventId)

/-- What a call is answered. -/
inductive Reply where
  | inserted
  | refused (why : StatementError)
  | fetched (found : Except StatementError (Option StoredEvent))

namespace RowStore

variable {σ : Type} (g : RowStore σ)

/-- What a call is answered, and the state after it. An insertion that fails leaves the state as
it is. -/
def answer (s : σ) : Call → Reply × σ
  | .insert id occurredAt recordedAt e =>
    match g.insertEvent s id occurredAt recordedAt e with
    | .error why => (.refused why, s)
    | .ok s' => (.inserted, s')
  | .fetch id => (.fetched (g.fetchEvent s id), s)

/-- The calls, one after the other, with what each is answered. -/
def history (s : σ) : List Call → List (Call × Reply)
  | [] => []
  | c :: rest => (c, (g.answer s c).1) :: history (g.answer s c).2 rest

/-- The state after calls. -/
def after (s : σ) (calls : List Call) : σ :=
  calls.foldl (fun s c => (g.answer s c).2) s

theorem history_append (s : σ) (calls calls' : List Call) :
    g.history s (calls ++ calls') = g.history s calls ++ g.history (g.after s calls) calls' := by
  induction calls generalizing s with
  | nil => rfl
  | cons c rest ih => simp only [List.cons_append, history, ih, after, List.foldl_cons]

theorem after_concat (s : σ) (calls : List Call) (c : Call) :
    g.after s (calls ++ [c]) = (g.answer (g.after s calls) c).2 := by
  simp [after]

theorem calls_history (s : σ) (calls : List Call) : (g.history s calls).map Prod.fst = calls := by
  induction calls generalizing s with
  | nil => rfl
  | cons c rest ih => rw [history, List.map_cons, ih]

/-- What comes before an entry of a history is the history of the calls before, and the rest goes
on from the state after the entry. -/
theorem history_split {s : σ} {calls : List Call} {before rest : List (Call × Reply)} {c : Call}
    {reply : Reply} (h : g.history s calls = before ++ (c, reply) :: rest) :
    ∃ calls₁ calls₂, before = g.history s calls₁ ∧
      reply = (g.answer (g.after s calls₁) c).1 ∧
      rest = g.history (g.answer (g.after s calls₁) c).2 calls₂ := by
  induction before generalizing s calls with
  | nil =>
    cases calls with
    | nil => cases h
    | cons c' calls₂ =>
      obtain ⟨hentry, hrest⟩ := List.cons.inj h
      obtain ⟨rfl, rfl⟩ := Prod.mk.inj hentry
      exact ⟨[], calls₂, rfl, rfl, hrest.symm⟩
  | cons entry before ih =>
    cases calls with
    | nil => cases h
    | cons c' calls =>
      obtain ⟨rfl, hrest⟩ := List.cons.inj h
      obtain ⟨calls₁, calls₂, rfl, hreply, hgo⟩ := ih hrest
      exact ⟨c' :: calls₁, calls₂, rfl, hreply, hgo⟩

end RowStore

/-! ## Insertions in a history -/

/-- An insertion under the id has succeeded. -/
def Inserted (log : List (Call × Reply)) (id : EventId) : Prop :=
  ∃ occurredAt recordedAt e, (Call.insert id occurredAt recordedAt e, Reply.inserted) ∈ log

/-- The first insertion under the id that has succeeded. -/
def FirstInserted (log : List (Call × Reply)) (id : EventId) (occurredAt recordedAt : Timestamp)
    (e : Event) : Prop :=
  ∃ before rest, log = before ++ (.insert id occurredAt recordedAt e, .inserted) :: rest ∧
    ¬Inserted before id

section Inserted

variable {log : List (Call × Reply)} {entry : Call × Reply} {id : EventId}
  {occurredAt recordedAt : Timestamp} {e : Event}

theorem inserted_concat_iff : Inserted (log ++ [entry]) id ↔
    Inserted log id ∨
      ∃ occurredAt recordedAt e, entry = (.insert id occurredAt recordedAt e, .inserted) := by
  simp only [Inserted, List.mem_append, List.mem_singleton, exists_or, eq_comm]

theorem FirstInserted.inserted (h : FirstInserted log id occurredAt recordedAt e) :
    Inserted log id := by
  obtain ⟨before, rest, rfl, -⟩ := h
  exact ⟨occurredAt, recordedAt, e, by simp⟩

theorem firstInserted_concat_iff : FirstInserted (log ++ [entry]) id occurredAt recordedAt e ↔
    FirstInserted log id occurredAt recordedAt e ∨
      ¬Inserted log id ∧ entry = (.insert id occurredAt recordedAt e, .inserted) := by
  constructor
  · rintro ⟨before, rest, h, hnone⟩
    rcases rest.eq_nil_or_concat with rfl | ⟨rest, last, rfl⟩
    · obtain ⟨rfl, hentry⟩ := List.append_inj' h rfl
      exact .inr ⟨hnone, (List.cons.inj hentry).1⟩
    · rw [List.concat_eq_append, ← List.cons_append, ← List.append_assoc] at h
      obtain ⟨rfl, -⟩ := List.append_inj' h rfl
      exact .inl ⟨before, rest, rfl, hnone⟩
  · rintro (⟨before, rest, rfl, hnone⟩ | ⟨hnone, rfl⟩)
    · exact ⟨before, rest ++ [entry], by simp, hnone⟩
    · exact ⟨log, [], rfl, hnone⟩

theorem Inserted.exists_first (h : Inserted log id) :
    ∃ occurredAt recordedAt e, FirstInserted log id occurredAt recordedAt e := by
  induction log using List.reverseRecOn with
  | nil =>
    obtain ⟨_, _, _, h⟩ := h
    cases h
  | append_singleton log entry ih =>
    simp only [firstInserted_concat_iff]
    by_cases hlog : Inserted log id
    · obtain ⟨occurredAt, recordedAt, e, hfirst⟩ := ih hlog
      exact ⟨occurredAt, recordedAt, e, .inl hfirst⟩
    · obtain ⟨occurredAt, recordedAt, e, hentry⟩ := (inserted_concat_iff.1 h).resolve_left hlog
      exact ⟨occurredAt, recordedAt, e, .inr ⟨hlog, hentry⟩⟩

end Inserted

namespace RowStore

variable {σ : Type} {g : RowStore σ} {s s' empty : σ} {id : EventId}
  {occurredAt recordedAt : Timestamp} {e : Event}

/-! ## Faithful stores -/

/-- What is expected of what keeps the rows, whatever else it may refuse. -/
structure Faithful (g : RowStore σ) (empty : σ) : Prop where
  /-- There is nothing in it at first. -/
  empty (id : EventId) : g.row? empty id = none
  /-- It takes no second row under an id. -/
  taken {s : σ} {id : EventId} (row : Row) : g.row? s id ≠ none →
    ∃ why, g.insert s id row = .error why
  /-- It keeps a row that it takes. -/
  kept {s s' : σ} {id : EventId} {row : Row} : g.insert s id row = .ok s' →
    ∃ row', g.row? s' id = some row' ∧ row.Keeps row'
  /-- It leaves the other rows alone. -/
  others {s s' : σ} {id id' : EventId} {row : Row} : g.insert s id row = .ok s' → id' ≠ id →
    g.row? s' id' = g.row? s id'

theorem fetchEvent_of_keeps {row : Row} (h : g.row? s id = some row)
    (hkeeps : (Row.ofEvent id occurredAt recordedAt e).Keeps row) :
    g.fetchEvent s id = .ok (some ⟨id, occurredAt, recordedAt, e⟩) := by
  simp only [fetchEvent, h, hkeeps.toStored]

theorem fetchEvent_of_none (h : g.row? s id = none) : g.fetchEvent s id = .ok none := by
  rw [fetchEvent, h]

/-- An event that was inserted is fetched as it was. -/
theorem Faithful.fetchEvent_self (hg : g.Faithful empty)
    (h : g.insertEvent s id occurredAt recordedAt e = .ok s') :
    g.fetchEvent s' id = .ok (some ⟨id, occurredAt, recordedAt, e⟩) := by
  obtain ⟨row, hrow, hkeeps⟩ := hg.kept h
  exact fetchEvent_of_keeps hrow hkeeps

theorem Faithful.fetchEvent_other (hg : g.Faithful empty) {id' : EventId} (hne : id' ≠ id)
    (h : g.insertEvent s id occurredAt recordedAt e = .ok s') :
    g.fetchEvent s' id' = g.fetchEvent s id' := by
  rw [fetchEvent, fetchEvent, hg.others h hne]

/-! ## What a state remembers -/

/-- Under each id the state has the row of the first insertion that succeeded, if one did. -/
structure Remembers (g : RowStore σ) (s : σ) (log : List (Call × Reply)) : Prop where
  first {id : EventId} {occurredAt recordedAt : Timestamp} {e : Event} :
    FirstInserted log id occurredAt recordedAt e →
      ∃ row, g.row? s id = some row ∧ (Row.ofEvent id occurredAt recordedAt e).Keeps row
  unknown {id : EventId} : ¬Inserted log id → g.row? s id = none

variable {log : List (Call × Reply)}

theorem Remembers.row?_ne_none (h : g.Remembers s log) (hid : Inserted log id) :
    g.row? s id ≠ none := by
  obtain ⟨occurredAt, recordedAt, e, hfirst⟩ := hid.exists_first
  obtain ⟨row, hrow, -⟩ := h.first hfirst
  rw [hrow]
  exact Option.some_ne_none row

theorem Remembers.of_no_insert (h : g.Remembers s log) {entry : Call × Reply}
    (hentry : entry.2 ≠ .inserted) : g.Remembers s (log ++ [entry]) where
  first hfirst := by
    rcases firstInserted_concat_iff.1 hfirst with hfirst | ⟨-, rfl⟩
    · exact h.first hfirst
    · exact absurd rfl hentry
  unknown hid := h.unknown fun hlog => hid (inserted_concat_iff.2 (.inl hlog))

theorem Remembers.of_insert (hg : g.Faithful empty) (h : g.Remembers s log)
    (hok : g.insertEvent s id occurredAt recordedAt e = .ok s') :
    g.Remembers s' (log ++ [(.insert id occurredAt recordedAt e, .inserted)]) where
  first {id'} _ _ _ hfirst := by
    -- The id was free, or the insertion would have failed.
    have hfree : ¬Inserted log id := fun hid => by
      obtain ⟨why, hwhy⟩ := hg.taken (Row.ofEvent id occurredAt recordedAt e) (h.row?_ne_none hid)
      cases hok.symm.trans hwhy
    rcases firstInserted_concat_iff.1 hfirst with hfirst | ⟨-, hentry⟩
    · have hne : id' ≠ id := fun heq => hfree (heq ▸ hfirst.inserted)
      rw [hg.others hok hne]
      exact h.first hfirst
    · obtain ⟨rfl, rfl, rfl, rfl⟩ := Call.insert.inj (Prod.mk.inj hentry).1
      exact hg.kept hok
  unknown {id'} hid := by
    have hne : id' ≠ id := fun heq =>
      hid (inserted_concat_iff.2 (.inr ⟨occurredAt, recordedAt, e, by rw [heq]⟩))
    rw [hg.others hok hne]
    exact h.unknown fun hlog => hid (inserted_concat_iff.2 (.inl hlog))

/-- What is remembered stays true over a call. -/
theorem Remembers.answer (hg : g.Faithful empty) (h : g.Remembers s log) (c : Call) :
    g.Remembers (g.answer s c).2 (log ++ [(c, (g.answer s c).1)]) := by
  cases c with
  | fetch id => exact h.of_no_insert (by simp [RowStore.answer])
  | insert id occurredAt recordedAt e =>
    rw [RowStore.answer]
    cases hok : g.insertEvent s id occurredAt recordedAt e with
    | error why => exact h.of_no_insert (by simp)
    | ok s' => exact h.of_insert hg hok

/-- What is remembered is true after any calls. -/
theorem remembers_history (hg : g.Faithful empty) (calls : List Call) :
    g.Remembers (g.after empty calls) (g.history empty calls) := by
  induction calls using List.reverseRecOn with
  | nil =>
    refine ⟨fun hfirst => ?_, fun _ => hg.empty _⟩
    obtain ⟨_, _, _, hmem⟩ := hfirst.inserted
    cases hmem
  | append_singleton calls c ih =>
    rw [history_append, after_concat]
    exact ih.answer hg c

end RowStore

/-! ## Tables -/

namespace Table

theorem row?_put_self (t : Table) (id : EventId) (row : Row) :
    (t.put id row).row? id = some row := by
  simp [row?, put]

theorem row?_put_of_ne (t : Table) {id id' : EventId} (row : Row) (h : id' ≠ id) :
    (t.put id row).row? id' = t.row? id' := by
  have hfind : (t.rows.filter fun r => r.1 ≠ id).find? (fun r => r.1 = id') =
      t.rows.find? fun r => r.1 = id' := by
    rw [List.find?_filter]
    congr 1
    funext r
    by_cases hr : r.1 = id' <;> simp [hr, h]
  simp only [row?, put, List.find?_cons, Ne.symm h, decide_false, hfind]

theorem insert_eq_ok_iff {t t' : Table} {id : EventId} {row : Row} :
    rowStore.insert t id row = .ok t' ↔ t.row? id = none ∧ t' = t.put id row := by
  show (if (t.row? id).isSome then Except.error duplicate else .ok (t.put id row)) = .ok t' ↔ _
  cases t.row? id <;> simp [eq_comm]

/-- Tables are faithful. -/
theorem rowStore_faithful : rowStore.Faithful Table.empty where
  empty _ := rfl
  taken {t id} row h := by
    cases hinsert : rowStore.insert t id row with
    | error why => exact ⟨why, rfl⟩
    | ok t' => exact absurd (insert_eq_ok_iff.1 hinsert).1 h
  kept {t t' id row} h := by
    obtain ⟨-, rfl⟩ := insert_eq_ok_iff.1 h
    exact ⟨row, row?_put_self t id row, Row.Keeps.refl row⟩
  others {t t' id id' row} h hne := by
    obtain ⟨-, rfl⟩ := insert_eq_ok_iff.1 h
    exact row?_put_of_ne t row hne

end Table

/-! ## Any calls -/

namespace RowStore

variable {σ : Type} {g : RowStore σ} {empty : σ}

/-- At any point of any sequence of calls on a faithful store, a fetch gives the event of the
first insertion under the id that succeeded, with its id and its times, and nothing if none did.
An insertion under an id that was inserted fails, and without it all other calls are answered the
same. -/
theorem history_remembers (hg : g.Faithful empty) {calls : List Call}
    {before rest : List (Call × Reply)} {c : Call} {reply : Reply}
    (h : g.history empty calls = before ++ (c, reply) :: rest) :
    (∀ id, c = .fetch id →
      (∀ occurredAt recordedAt e, FirstInserted before id occurredAt recordedAt e →
        reply = .fetched (.ok (some ⟨id, occurredAt, recordedAt, e⟩))) ∧
      (¬Inserted before id → reply = .fetched (.ok none))) ∧
    ∀ id occurredAt recordedAt e, c = .insert id occurredAt recordedAt e → Inserted before id →
      (∃ why, reply = .refused why) ∧
        g.history empty ((before ++ rest).map Prod.fst) = before ++ rest := by
  obtain ⟨calls₁, calls₂, rfl, rfl, rfl⟩ := g.history_split h
  have hremembers := remembers_history hg calls₁
  refine ⟨?_, ?_⟩
  · rintro id rfl
    refine ⟨fun occurredAt recordedAt e hfirst => ?_, fun hnone => ?_⟩
    · obtain ⟨row, hrow, hkeeps⟩ := hremembers.first hfirst
      exact congrArg Reply.fetched (fetchEvent_of_keeps hrow hkeeps)
    · exact congrArg Reply.fetched (fetchEvent_of_none (hremembers.unknown hnone))
  · rintro id occurredAt recordedAt e rfl hid
    obtain ⟨why, hwhy⟩ := hg.taken (Row.ofEvent id occurredAt recordedAt e)
      (hremembers.row?_ne_none hid)
    have hanswer : g.answer (g.after empty calls₁) (.insert id occurredAt recordedAt e) =
        (.refused why, g.after empty calls₁) := by
      have hinsert : g.insertEvent (g.after empty calls₁) id occurredAt recordedAt e =
          .error why := hwhy
      rw [answer, hinsert]
    rw [hanswer, List.map_append, calls_history, calls_history, history_append]
    exact ⟨⟨why, rfl⟩, rfl⟩

/-- Two insertions under one id in a table : the second is refused, and the first is what is
fetched, with the absent kind and the tags and ids as they were. -/
theorem history_remembers_first :
    let id : EventId := ⟨"3f2a"⟩
    let e := ((Event.bare "web-01" .unknown).withTag "host" "a").withRules "0x2"
      (.ofList ["7", "3"])
    let calls : List Call := [.fetch id, .insert id ⟨1⟩ ⟨2⟩ e,
      .insert id ⟨3⟩ ⟨4⟩ (Event.bare "web-02" .state), .fetch id]
    let log := Table.rowStore.history Table.empty calls
    log[0]? = some (.fetch id, .fetched (.ok none)) ∧
      (∃ why, log[2]? = some (.insert id ⟨3⟩ ⟨4⟩ (Event.bare "web-02" .state), .refused why)) ∧
      log[3]? = some (.fetch id, .fetched (.ok (some ⟨id, ⟨1⟩, ⟨2⟩, e⟩))) := by
  intro id e calls log
  have hfirst : FirstInserted (log.take 3) id ⟨1⟩ ⟨2⟩ e :=
    ⟨log.take 1, (log.take 3).drop 2, rfl, by simp [Inserted, log, calls, history]⟩
  have hnone : ¬Inserted ([] : List (Call × Reply)) id := by simp [Inserted]
  have h₀ : log = [] ++ (.fetch id, _) :: log.drop 1 := rfl
  have h₂ : log =
      log.take 2 ++ (.insert id ⟨3⟩ ⟨4⟩ (Event.bare "web-02" .state), _) :: log.drop 3 := rfl
  have h₃ : log = log.take 3 ++ (.fetch id, _) :: [] := rfl
  have hinserted : (log.take 2)[1]? = some (.insert id ⟨1⟩ ⟨2⟩ e, .inserted) := rfl
  have hid : Inserted (log.take 2) id := ⟨⟨1⟩, ⟨2⟩, e, List.mem_of_getElem? hinserted⟩
  have hunknown := ((history_remembers Table.rowStore_faithful h₀).1 id rfl).2 hnone
  obtain ⟨why, hwhy⟩ := ((history_remembers Table.rowStore_faithful h₂).2 id _ _ _ rfl hid).1
  have hfetch := ((history_remembers Table.rowStore_faithful h₃).1 id rfl).1 _ _ _ hfirst
  refine ⟨congrArg (fun r => some (Call.fetch id, r)) hunknown,
    ⟨why, congrArg (fun r => some (Call.insert id _ _ _, r)) hwhy⟩,
    congrArg (fun r => some (Call.fetch id, r)) hfetch⟩

end RowStore

end Courier.Store
