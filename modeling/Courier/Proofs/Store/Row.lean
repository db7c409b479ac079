import Courier.Proofs.Event.Vocabulary
import Courier.Proofs.Json.Order
import Courier.Proofs.Text.Utf8
import Courier.Store.Row

/-!
# Events survive as rows

`Columns` are what a row can hold, whether that is an event or not. A row with these columns is
read by reading the tags, the rule ids, the kind and the severity in turn, and the other columns
are as they stand (`Row.toStored_of_carries`).

`Row.Keeps` says that a row still has what was written : a JSON column a value with the same
contents, every other column the very cell. From such a row the event is read back as it was,
with its id and its times (`Row.Keeps.toStored`), so that each column is read under the name it
was written under, and what stands for the absent kind and severity, for a flag that is not set,
for the tags and for the rule ids is undone.
-/

namespace Courier

namespace Store

open Json (Value)

/-! ## JSON columns -/

mutual

theorem treeOf_eq : ∀ v : Value, treeOf v = v.toTree
  | .null | .bool _ | .num _ | .str _ => rfl
  | .arr items => by rw [treeOf, Value.toTree, treesOf_eq items]
  | .obj members => by rw [treeOf, Value.toTree, memberTreesOf_eq members]

theorem treesOf_eq : ∀ vs : List Value, treesOf vs = Value.treesItems vs
  | [] => rfl
  | v :: rest => by rw [treesOf, Value.treesItems, treeOf_eq v, treesOf_eq rest]

theorem memberTreesOf_eq :
    ∀ ms : List (String × Value), memberTreesOf ms = Value.treesMembers ms
  | [] => rfl
  | (k, v) :: rest => by
    rw [memberTreesOf, Value.treesMembers, treeOf_eq v, memberTreesOf_eq rest]

end

theorem tagsOf_tagsValue (tags : Dict String) : tagsOf (Event.tagsValue tags) = .ok tags := by
  rw [tagsOf, treeOf_eq]
  exact Json.Decode.dict_toTree tags

theorem ruleIdsOf_idsValue (ids : KeySet) : ruleIdsOf (Event.idsValue ids) = .ok ids := by
  rw [ruleIdsOf, treeOf_eq]
  exact Json.Decode.keySet_toTree ids

theorem ordered_tagsValue (tags : Dict String) : (Event.tagsValue tags).Ordered := by
  refine Value.ordered_obj_iff.2 ⟨?_, fun m hm => ?_⟩
  · exact List.pairwise_map.2 tags.ordered
  · obtain ⟨e, -, rfl⟩ := List.mem_map.1 hm
    exact trivial

theorem ordered_idsValue (ids : KeySet) : (Event.idsValue ids).Ordered := by
  refine Value.orderedItems_iff.2 fun v hv => ?_
  obtain ⟨k, -, rfl⟩ := List.mem_map.1 hv
  exact trivial

/-! ## Fields -/

namespace Row

variable {α : Type} {row : Row} {name : String}

theorem read_of_accepts {r : CellReader α} {type : ColumnType} {cell : Cell}
    (h : Entries.get? name row = some ⟨type, cell⟩) (ha : r.accepts type = true)
    (hcell : cell ≠ .null) : row.read r name = r.read cell := by
  rw [read, h]
  cases cell with
  | null => exact absurd rfl hcell
  | _ => exact if_pos ha

theorem read_of_null {r : CellReader α} {type : ColumnType} {v : α}
    (h : Entries.get? name row = some ⟨type, .null⟩) (hv : r.ofNull? = some v) :
    row.read r name = .ok v := by
  simp only [read, h, hv]

/-- What is read is the value of a null, or what a cell of a fitting column holds. -/
theorem of_read_eq_ok {r : CellReader α} {v : α} (h : row.read r name = .ok v) :
    ∃ type cell, Entries.get? name row = some ⟨type, cell⟩ ∧
      (cell = .null ∧ r.ofNull? = some v ∨ r.accepts type = true ∧ r.read cell = .ok v) := by
  rw [read] at h
  cases hget : Entries.get? name row with
  | none => simp [hget] at h
  | some f =>
    obtain ⟨type, cell⟩ := f
    refine ⟨type, cell, rfl, ?_⟩
    simp only [hget] at h
    cases cell with
    | null =>
      cases hnull : r.ofNull? with
      | none => simp [hnull] at h
      | some w => exact .inl ⟨rfl, by simpa [hnull] using h⟩
    | _ =>
      by_cases ha : r.accepts type = true
      · exact .inr ⟨ha, by simpa [ha] using h⟩
      · simp [ha] at h

theorem read_text {s : String} (h : Entries.get? name row = some (textField s)) :
    row.read CellReader.text name = .ok s := by
  have ha : CellReader.text.accepts .text = true := by decide +kernel
  rw [read_of_accepts h ha (by simp)]
  simp only [CellReader.text, Utf8.decode?_ofString, String.ofList_toList]

/-- A text in a column that texts can be read from is read as a token. -/
theorem read_member {voc : Vocabulary α} {type : ColumnType} {s : String}
    (h : Entries.get? name row = some ⟨type, .text (Utf8.ofString s)⟩)
    (ht : type.holdsText = true) :
    row.read (CellReader.member voc) name = (voc.parse s).mapError .token := by
  rw [read_of_accepts h ht (by simp)]
  simp only [CellReader.member, Utf8.decode?_ofString, String.ofList_toList]
  rfl

/-- A token is read as its member, and a null as the absent one. -/
theorem read_token {voc : Vocabulary α} {t? : Option String}
    (h : Entries.get? name row = some (tokenField t?)) :
    row.read (CellReader.member voc) name = (voc.ofColumn t?).mapError .token := by
  cases t? with
  | none => exact read_of_null h rfl
  | some t =>
    have ha : ColumnType.holdsText .text = true := by decide +kernel
    exact read_member h ha

theorem read_flag {b? : Option Bool}
    (h : Entries.get? name row = some ⟨⟨"BOOL"⟩, b?.elim .null .flag⟩) :
    row.read CellReader.flag? name = .ok b? := by
  have ha : CellReader.flag?.accepts ⟨"BOOL"⟩ = true := by decide +kernel
  cases b? with
  | none => exact read_of_null h rfl
  | some b => exact read_of_accepts h ha (by simp)

theorem read_json {v : Value} (h : Entries.get? name row = some ⟨⟨"JSONB"⟩, .json v⟩) :
    row.read CellReader.json name = .ok v := by
  have ha : CellReader.json.accepts ⟨"JSONB"⟩ = true := by decide +kernel
  exact read_of_accepts h ha (by simp)

theorem read_id {id : EventId} (h : Entries.get? name row = some ⟨⟨"UUID"⟩, .id id⟩) :
    row.read CellReader.id name = .ok id := by
  have ha : CellReader.id.accepts ⟨"UUID"⟩ = true := by decide +kernel
  exact read_of_accepts h ha (by simp)

theorem read_time {t : Timestamp}
    (h : Entries.get? name row = some ⟨⟨"TIMESTAMPTZ"⟩, .time t⟩) :
    row.read CellReader.time name = .ok t := by
  have ha : CellReader.time.accepts ⟨"TIMESTAMPTZ"⟩ = true := by decide +kernel
  exact read_of_accepts h ha (by simp)

end Row

/-! ## Columns -/

/-- What the columns of a row hold. A column of an enumeration has any text or nothing, and a JSON
column any value. -/
structure Columns where
  id : EventId
  occurredAt : Timestamp
  recordedAt : Timestamp
  name : String
  url : String
  tags : Value
  /-- The keys of every object in the tags are in strictly ascending order. -/
  ordered : tags.Ordered
  kind : Option String
  severity : Option String
  username : String
  message : String
  mute : Option Bool
  muteReason : String
  rulesVersion : String
  ruleIds : Value

namespace Columns

/-- The columns of an event. -/
def ofEvent (id : EventId) (occurredAt recordedAt : Timestamp) (e : Event) : Columns where
  id := id
  occurredAt := occurredAt
  recordedAt := recordedAt
  name := e.name
  url := e.url
  tags := Event.tagsValue e.tags
  ordered := ordered_tagsValue e.tags
  kind := kinds.toColumn e.kind
  severity := severities.toColumn e.severity
  username := e.username
  message := e.message
  mute := e.mute
  muteReason := e.muteReason
  rulesVersion := e.rulesVersion
  ruleIds := Event.idsValue e.ruleIds

variable (c : Columns)

/-- The row with the columns. -/
def row : Row := [
  ("event_id", ⟨⟨"UUID"⟩, .id c.id⟩),
  ("occurred_at", ⟨⟨"TIMESTAMPTZ"⟩, .time c.occurredAt⟩),
  ("name", Row.textField c.name),
  ("url", Row.textField c.url),
  ("tags", ⟨⟨"JSONB"⟩, .json c.tags⟩),
  ("type", Row.tokenField c.kind),
  ("severity", Row.tokenField c.severity),
  ("username", Row.textField c.username),
  ("message", Row.textField c.message),
  ("mute", ⟨⟨"BOOL"⟩, c.mute.elim .null .flag⟩),
  ("mute_reason", Row.textField c.muteReason),
  ("rules_version", Row.textField c.rulesVersion),
  ("rule_ids", ⟨⟨"JSONB"⟩, .json c.ruleIds⟩),
  ("recorded_at", ⟨⟨"TIMESTAMPTZ"⟩, .time c.recordedAt⟩)]

/-- The recorded event of the columns, given what four of them are read as. -/
def stored (tags : Dict String) (ruleIds : KeySet) (kind : Kind) (severity : Severity) :
    StoredEvent where
  id := c.id
  occurredAt := c.occurredAt
  recordedAt := c.recordedAt
  event := {
    name := c.name
    url := c.url
    tags := tags
    kind := kind
    severity := severity
    username := c.username
    message := c.message
    mute := c.mute
    muteReason := c.muteReason
    rulesVersion := c.rulesVersion
    ruleIds := ruleIds }

end Columns

/-- The row has every field of the columns. -/
def Row.Carries (row : Row) (c : Columns) : Prop :=
  ∀ name f, Entries.get? name c.row = some f → Entries.get? name row = some f

theorem Columns.carries (c : Columns) : c.row.Carries c :=
  fun _ _ h => h

/-- Four columns are read in turn, and the others are as they stand. -/
theorem Row.toStored_of_carries {row : Row} {c : Columns} (h : row.Carries c) :
    row.toStored = (do
      let tags ← (tagsOf c.tags).mapError (.shape "tags" c.id)
      let ruleIds ← (ruleIdsOf c.ruleIds).mapError (.shape "rule_ids" c.id)
      let kind ← ((kinds.ofColumn c.kind).mapError .token).mapError (.token "type" c.id)
      let severity ←
        ((severities.ofColumn c.severity).mapError .token).mapError (.token "severity" c.id)
      return c.stored tags ruleIds kind severity) := by
  simp only [toStored, plain, shaped, token, read_id (h "event_id" _ rfl),
    read_json (h "tags" _ rfl), read_json (h "rule_ids" _ rfl),
    read_token (h "type" _ rfl), read_token (h "severity" _ rfl),
    read_time (h "occurred_at" _ rfl), read_time (h "recorded_at" _ rfl),
    read_text (h "name" _ rfl), read_text (h "url" _ rfl),
    read_text (h "username" _ rfl), read_text (h "message" _ rfl),
    read_flag (h "mute" _ rfl), read_text (h "mute_reason" _ rfl),
    read_text (h "rules_version" _ rfl)]
  rfl

/-! ## Rows that are kept -/

/-- A cell after it was stored : a JSON value with the same contents, else the same cell. -/
inductive Cell.Keeps : Cell → Cell → Prop
  | json {v w : Value} (h : v.Alike w) (hw : w.Ordered) : Keeps (.json v) (.json w)
  | same (c : Cell) : Keeps c c

/-- A row after it was stored : under every name there is what was written, with the type of its
column. -/
def Row.Keeps (row row' : Row) : Prop :=
  ∀ name f, Entries.get? name row = some f →
    ∃ c, Entries.get? name row' = some ⟨f.type, c⟩ ∧ f.cell.Keeps c

/-- A JSON value in the cell is ordered. -/
def Cell.Ordered : Cell → Prop
  | .json v => v.Ordered
  | _ => True

theorem Cell.Keeps.eq {c c' : Cell} (h : c.Keeps c') (hc : c.Ordered) : c' = c := by
  cases h with
  | json h hw => rw [h.eq_of_ordered hc hw]
  | same => rfl

namespace Row

variable {row : Row} {id : EventId} {occurredAt recordedAt : Timestamp} {e : Event}

theorem Keeps.refl (row : Row) : row.Keeps row :=
  fun _ f h => ⟨f.cell, h, .same _⟩

theorem ordered_tokenField (t? : Option String) : (tokenField t?).cell.Ordered := by
  cases t? <;> exact trivial

theorem ordered_ofEvent :
    ∀ m ∈ ofEvent id occurredAt recordedAt e, m.2.cell.Ordered := by
  have hmute : (e.mute.elim Cell.null Cell.flag).Ordered := by
    cases e.mute <;> exact trivial
  simp only [ofEvent_eq, List.forall_mem_cons]
  exact ⟨trivial, trivial, trivial, trivial, ordered_tagsValue e.tags,
    ordered_tokenField _, ordered_tokenField _, trivial, trivial, hmute, trivial, trivial,
    ordered_idsValue e.ruleIds, trivial, by simp⟩

/-- Every field of the row of an event is the same in a row that keeps it. -/
theorem Keeps.carries (h : (ofEvent id occurredAt recordedAt e).Keeps row) :
    row.Carries (.ofEvent id occurredAt recordedAt e) := by
  intro name f hf
  obtain ⟨c, hc, hkeeps⟩ := h name f hf
  rw [hc, hkeeps.eq (ordered_ofEvent _ (Entries.mem_of_get? hf))]

/-- The event, the id and the times of a row are what they were when it was written. -/
theorem Keeps.toStored (h : (ofEvent id occurredAt recordedAt e).Keeps row) :
    row.toStored = .ok ⟨id, occurredAt, recordedAt, e⟩ := by
  rw [toStored_of_carries h.carries]
  simp only [Columns.ofEvent, tagsOf_tagsValue, ruleIdsOf_idsValue,
    kinds_lawful.ofColumn_toColumn, severities_lawful.ofColumn_toColumn]
  rfl

end Row

end Store

end Courier
