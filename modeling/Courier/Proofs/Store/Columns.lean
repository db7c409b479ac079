import Courier.Proofs.Steps
import Courier.Proofs.Store.Token
import Courier.Store.Table

/-!
# Rows with any contents

Four columns of a row may hold what is no part of an event. They are sound (`Columns.Sound`) if
the tags are an object of texts, the rule ids an array of texts, and every text for a kind or a
severity a token. A row whose columns are sound is read as the one event that has the values of
the columns (`Columns.Describes`), and any other row as an error that names the first column at
fault. Writing the event again gives the same columns, up to the rule ids, which are then sorted
and without repetitions (`toStored_exact`).
-/

namespace Courier.Store

open Json (Value)

/-- The columns that may hold what is no part of an event. -/
inductive Checked where
  | tags | ruleIds | kind | severity

namespace Checked

/-- The name of a column. -/
def column : Checked → String
  | .tags => "tags"
  | .ruleIds => "rule_ids"
  | .kind => "type"
  | .severity => "severity"

/-- The columns in the order in which they are read. -/
def all : List Checked :=
  [.tags, .ruleIds, .kind, .severity]

end Checked

namespace Columns

variable (c : Columns)

/-- A column holds what can be part of an event. -/
def Sound : Checked → Prop
  | .tags => ∃ es : List (String × String), c.tags = .obj (es.map fun e => (e.1, .str e.2))
  | .ruleIds => ∃ ks : List String, c.ruleIds = .arr (ks.map .str)
  | .kind => ∀ s, c.kind = some s → ∃ k : Kind, k.token? = some s
  | .severity => ∀ s, c.severity = some s → ∃ v : Severity, v.token? = some s

/-- The event has the values of the columns, and what is null in a column is absent. The rule ids
are a set. -/
structure Describes (st : StoredEvent) : Prop where
  id : st.id = c.id
  occurredAt : st.occurredAt = c.occurredAt
  recordedAt : st.recordedAt = c.recordedAt
  name : st.event.name = c.name
  url : st.event.url = c.url
  tags : c.tags = .obj (st.event.tags.entries.map fun e => (e.1, .str e.2))
  kind : st.event.kind.token? = c.kind
  severity : st.event.severity.token? = c.severity
  username : st.event.username = c.username
  message : st.event.message = c.message
  mute : st.event.mute = c.mute
  muteReason : st.event.muteReason = c.muteReason
  rulesVersion : st.event.rulesVersion = c.rulesVersion
  ruleIds : ∃ ks : List String, c.ruleIds = .arr (ks.map .str) ∧ ∀ k, k ∈ st.event.ruleIds ↔ k ∈ ks

end Columns

/-! ## Reading a column -/

theorem exists_tagsOf_iff {v : Value} : (∃ tags, tagsOf v = .ok tags) ↔
    ∃ es : List (String × String), v = .obj (es.map fun e => (e.1, .str e.2)) := by
  simp only [tagsOf, treeOf_eq, Json.Decode.exists_dict_iff, Json.Decode.text_eq_ok_iff]
  exact Value.exists_toTree_eq_object_iff

/-- Without a key twice, an object of texts is the object that is written for its tags. -/
theorem tagsOf_eq_ok_iff {v : Value} (hv : v.Ordered) {tags : Dict String} :
    tagsOf v = .ok tags ↔ v = Event.tagsValue tags := by
  constructor
  · intro h
    obtain ⟨es, rfl⟩ := exists_tagsOf_iff.1 ⟨tags, h⟩
    have hes := List.pairwise_map.1 (Value.ordered_obj_iff.1 hv).1
    have htags : Except.ok tags = Except.ok (⟨es, hes⟩ : Dict String) :=
      h.symm.trans (tagsOf_tagsValue ⟨es, hes⟩)
    rw [Except.ok.inj htags, Event.tagsValue]
  · rintro rfl
    exact tagsOf_tagsValue tags

theorem ruleIdsOf_eq_ok_iff {v : Value} {ids : KeySet} : ruleIdsOf v = .ok ids ↔
    ∃ ks : List String, v = .arr (ks.map .str) ∧ ∀ k, k ∈ ids ↔ k ∈ ks := by
  simp only [ruleIdsOf, treeOf_eq, Json.Decode.keySet_eq_ok_iff, Value.toTree_eq_texts_iff]

namespace Columns

variable {c : Columns}

theorem sound_tags_iff : c.Sound .tags ↔ ∃ tags, tagsOf c.tags = .ok tags :=
  exists_tagsOf_iff.symm

theorem sound_ruleIds_iff : c.Sound .ruleIds ↔ ∃ ids, ruleIdsOf c.ruleIds = .ok ids := by
  simp only [ruleIdsOf_eq_ok_iff]
  constructor
  · rintro ⟨ks, hks⟩
    exact ⟨.ofList ks, ks, hks, fun _ => KeySet.mem_ofList⟩
  · rintro ⟨_, ks, hks, -⟩
    exact ⟨ks, hks⟩

theorem sound_kind_iff : c.Sound .kind ↔ ∃ k, kinds.ofColumn c.kind = .ok k :=
  kinds_lawful.exists_ofColumn_iff.symm

theorem sound_severity_iff : c.Sound .severity ↔ ∃ v, severities.ofColumn c.severity = .ok v :=
  severities_lawful.exists_ofColumn_iff.symm

/-! ## Reading a row -/

theorem toStored_eq_ok_iff {st : StoredEvent} : c.row.toStored = .ok st ↔ c.Describes st := by
  rw [Row.toStored_of_carries c.carries]
  simp only [bind_eq_ok_iff, mapError_eq_ok_iff, tagsOf_eq_ok_iff c.ordered, ruleIdsOf_eq_ok_iff,
    kinds_lawful.ofColumn_eq_ok_iff, severities_lawful.ofColumn_eq_ok_iff, pure, Except.pure,
    Except.ok.injEq]
  constructor
  · rintro ⟨tags, htags, ids, hids, kind, hkind, severity, hseverity, rfl⟩
    exact {
      id := rfl, occurredAt := rfl, recordedAt := rfl, name := rfl, url := rfl, tags := htags
      kind := hkind, severity := hseverity, username := rfl, message := rfl, mute := rfl
      muteReason := rfl, rulesVersion := rfl, ruleIds := hids }
  · intro h
    refine ⟨st.event.tags, h.tags, st.event.ruleIds, h.ruleIds, st.event.kind, h.kind,
      st.event.severity, h.severity, ?_⟩
    simp only [stored, ← h.id, ← h.occurredAt, ← h.recordedAt, ← h.name, ← h.url, ← h.username,
      ← h.message, ← h.mute, ← h.muteReason, ← h.rulesVersion]

/-- What cannot be read is the first column that is not sound. -/
theorem exists_fault {e : RowError} (h : c.row.toStored = .error e) :
    ∃ x, FirstWithout c.Sound Checked.all x ∧ e.column = x.column ∧
      e.message? = some ("decode " ++ x.column ++ " event_id=" ++ c.id.text) := by
  rw [Row.toStored_of_carries c.carries] at h
  simp only [bind_eq_error_iff, mapError_eq_error_iff, mapError_eq_ok_iff] at h
  rcases h with ⟨f, hf, rfl⟩ | ⟨tags, htags, ⟨f, hf, rfl⟩ | ⟨ids, hids, ⟨-, ⟨f, hf, rfl⟩, rfl⟩ |
    ⟨kind, hkind, ⟨-, ⟨f, hf, rfl⟩, rfl⟩ | ⟨severity, hseverity, hstored⟩⟩⟩⟩
  · have hfault : ¬c.Sound .tags := by simp [sound_tags_iff, hf]
    exact ⟨.tags, ⟨[], _, rfl, hfault, by simp⟩, rfl, rfl⟩
  · have hfault : ¬c.Sound .ruleIds := by simp [sound_ruleIds_iff, hf]
    have hbefore : ∀ y ∈ [Checked.tags], c.Sound y := by simp [sound_tags_iff, htags]
    exact ⟨.ruleIds, ⟨_, _, rfl, hfault, hbefore⟩, rfl, rfl⟩
  · have hfault : ¬c.Sound .kind := by simp [sound_kind_iff, hf]
    have hbefore : ∀ y ∈ [Checked.tags, .ruleIds], c.Sound y := by
      simp [sound_tags_iff, htags, sound_ruleIds_iff, hids]
    exact ⟨.kind, ⟨_, _, rfl, hfault, hbefore⟩, rfl, rfl⟩
  · have hfault : ¬c.Sound .severity := by simp [sound_severity_iff, hf]
    have hbefore : ∀ y ∈ [Checked.tags, .ruleIds, .kind], c.Sound y := by
      simp [sound_tags_iff, htags, sound_ruleIds_iff, hids, sound_kind_iff, hkind]
    exact ⟨.severity, ⟨_, _, rfl, hfault, hbefore⟩, rfl, rfl⟩
  · cases hstored

theorem exists_toStored_iff : (∃ st, c.row.toStored = .ok st) ↔ ∀ x, c.Sound x := by
  refine exists_ok_iff_forall (fun st hst x => ?_) fun e he => ?_
  · have h := toStored_eq_ok_iff.1 hst
    cases x with
    | tags => exact ⟨_, h.tags⟩
    | ruleIds => exact h.ruleIds.imp fun _ hks => hks.1
    | kind => exact fun s hs => ⟨st.event.kind, h.kind.trans hs⟩
    | severity => exact fun s hs => ⟨st.event.severity, h.severity.trans hs⟩
  · obtain ⟨x, hx, -⟩ := exists_fault he
    exact ⟨x, hx.lacks⟩

/-! ## Writing it again -/

/-- The columns under an id, with times and rule ids. -/
def rewritten (c : Columns) (id : EventId) (occurredAt recordedAt : Timestamp) (ids : List String) :
    Columns :=
  { c with id, occurredAt, recordedAt, ruleIds := .arr (ids.map .str) }

/-- The row of an event is that of the columns it was read from, with the rule ids in order. -/
theorem Describes.ofEvent_eq {st : StoredEvent} (h : c.Describes st) (id : EventId)
    (occurredAt recordedAt : Timestamp) : Row.ofEvent id occurredAt recordedAt st.event =
      (c.rewritten id occurredAt recordedAt st.event.ruleIds.toList).row := by
  have htags : Event.tagsValue st.event.tags = c.tags := h.tags.symm
  have hkind : kinds.toColumn st.event.kind = c.kind := h.kind
  have hseverity : severities.toColumn st.event.severity = c.severity := h.severity
  rw [Row.ofEvent_eq, htags, hkind, hseverity, h.name, h.url, h.username, h.message, h.mute,
    h.muteReason, h.rulesVersion]
  rfl

end Columns

/-- A row is read exactly if its columns are sound, as the event that has their values, and else
the error names the first column at fault. The event is inserted again with the same columns, the
rule ids sorted and each once. -/
theorem toStored_exact (c : Columns) :
    ((∃ st, c.row.toStored = .ok st) ↔ ∀ x, c.Sound x) ∧
    (∀ st, c.row.toStored = .ok st ↔ c.Describes st) ∧
    (∀ st, c.row.toStored = .ok st → ∃ ks ids : List String, c.ruleIds = .arr (ks.map .str) ∧
      ids.Pairwise (· < ·) ∧ (∀ k, k ∈ ids ↔ k ∈ ks) ∧
        ∀ {σ : Type} (g : RowStore σ) (s : σ) (id : EventId) (occurredAt recordedAt : Timestamp),
          g.insertEvent s id occurredAt recordedAt st.event =
            g.insert s id (c.rewritten id occurredAt recordedAt ids).row) ∧
    (∀ e, c.row.toStored = .error e → ∃ x, FirstWithout c.Sound Checked.all x ∧
      e.column = x.column ∧
        e.message? = some ("decode " ++ x.column ++ " event_id=" ++ c.id.text)) := by
  refine ⟨c.exists_toStored_iff, fun st => c.toStored_eq_ok_iff, fun st hst => ?_,
    fun e => c.exists_fault⟩
  have h := Columns.toStored_eq_ok_iff.1 hst
  obtain ⟨ks, hks, hmem⟩ := h.ruleIds
  refine ⟨ks, st.event.ruleIds.toList, hks, st.event.ruleIds.ordered, hmem, ?_⟩
  intro σ g s id occurredAt recordedAt
  rw [RowStore.insertEvent, h.ofEvent_eq]

end Courier.Store
