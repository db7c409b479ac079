import Courier.Event.Wire
import Courier.Proofs.Event.Vocabulary

/-!
# Events survive the wire

Reading the members that an event is written with fills a draft field by field
(`members_written`). A field that was left out stays empty there, and `Draft.finish` gives
it the value that leaves it out, so that an event is read back as it was (`ofJson_toJson`).
-/

namespace Courier

open Json

namespace Event

/-! ## Reading one field -/

theorem field?_label (f : Field) : record.field? f.label = some f := by
  cases f <;> rfl

/-- A member with the name of a field fills it, if it is still free. -/
theorem read_field {d d' : Draft} {f : Field} {v : Value} (hd : Draft.filled f d = false)
    (hv : Draft.fill f v.toTree d = .ok d') (rest : List (String × Value)) :
    record.members true d (Value.treesMembers ((f.label, v) :: rest)) =
      record.members true d' (Value.treesMembers rest) :=
  record.members_cons (field?_label f) hd hv (Value.treesMembers rest)

theorem fill_tags (tags : Dict String) (d : Draft) :
    Draft.fill .tags (tagsValue tags).toTree d = .ok { d with tags := some tags } := by
  rw [Draft.fill, tagsValue, Decode.dict_toTree]
  rfl

theorem fill_kind (k : Kind) (d : Draft) :
    Draft.fill .kind (kinds.toValue k).toTree d = .ok { d with kind := some k } := by
  rw [Draft.fill, kinds_lawful.decode_toValue]
  rfl

theorem fill_severity (s : Severity) (d : Draft) :
    Draft.fill .severity (severities.toValue s).toTree d = .ok { d with severity := some s } := by
  rw [Draft.fill, severities_lawful.decode_toValue]
  rfl

theorem fill_ruleIds (ids : KeySet) (d : Draft) :
    Draft.fill .ruleIds (idsValue ids).toTree d = .ok { d with ruleIds := some ids } := by
  rw [Draft.fill, idsValue, Decode.keySet_toTree]
  rfl

/-! ## Fields that may be left out -/

/-- What is read of a severity : nothing if it is absent. -/
theorem read_severity {d : Draft} (hd : d.severity = none) (s : Severity)
    (rest : List (String × Value)) :
    record.members true d (Value.treesMembers
        ((if s = .none then [] else [("severity", severities.toValue s)]) ++ rest)) =
      record.members true { d with severity := if s = .none then none else some s }
        (Value.treesMembers rest) := by
  split
  · rw [← hd, List.nil_append]
  · exact read_field (f := .severity) (by rw [Draft.filled, hd]; rfl) (fill_severity s d) rest

/-- What is read of a mute flag : nothing if it is not set. -/
theorem read_mute {d : Draft} (hd : d.mute = none) (mute : Option Bool)
    (rest : List (String × Value)) :
    record.members true d (Value.treesMembers
        ((match mute with | none => [] | some b => [("mute", .bool b)]) ++ rest)) =
      record.members true { d with mute := mute.map some } (Value.treesMembers rest) := by
  cases mute with
  | none => rw [Option.map_none, ← hd, List.nil_append]
  | some b => exact read_field (f := .mute) (by rw [Draft.filled, hd]; rfl) rfl rest

/-- What is read of a reason : nothing if it is empty. -/
theorem read_muteReason {d : Draft} (hd : d.muteReason = none) (reason : String)
    (rest : List (String × Value)) :
    record.members true d (Value.treesMembers
        ((if reason = "" then [] else [("mute_reason", .str reason)]) ++ rest)) =
      record.members true { d with muteReason := if reason = "" then none else some reason }
        (Value.treesMembers rest) := by
  split
  · rw [← hd, List.nil_append]
  · exact read_field (f := .muteReason) (by rw [Draft.filled, hd]; rfl) rfl rest

/-! ## Reading an event -/

/-- The draft of what is written of an event. -/
def written (e : Event) : Draft where
  name := some e.name
  url := some e.url
  tags := some e.tags
  kind := some e.kind
  severity := if e.severity = .none then none else some e.severity
  username := some e.username
  message := some e.message
  mute := e.mute.map some
  muteReason := if e.muteReason = "" then none else some e.muteReason
  rulesVersion := some e.rulesVersion
  ruleIds := some e.ruleIds

/-- Member by member the draft is filled with what is written of an event. -/
theorem members_written (e : Event) : ∃ ms, e.toValue = .obj ms ∧
    record.members true record.blank (Value.treesMembers ms) = .ok e.written := by
  refine ⟨_, rfl, ?_⟩
  simp only [List.append_assoc, List.cons_append, List.nil_append]
  refine Eq.trans (read_field (f := .name) rfl rfl _) ?_
  refine Eq.trans (read_field (f := .url) rfl rfl _) ?_
  refine Eq.trans (read_field (f := .tags) rfl (fill_tags e.tags _) _) ?_
  refine Eq.trans (read_field (f := .kind) rfl (fill_kind e.kind _) _) ?_
  refine Eq.trans (read_severity rfl e.severity _) ?_
  refine Eq.trans (read_field (f := .username) rfl rfl _) ?_
  refine Eq.trans (read_field (f := .message) rfl rfl _) ?_
  refine Eq.trans (read_mute rfl e.mute _) ?_
  refine Eq.trans (read_muteReason rfl e.muteReason _) ?_
  refine Eq.trans (read_field (f := .rulesVersion) rfl rfl _) ?_
  refine Eq.trans (read_field (f := .ruleIds) rfl (fill_ruleIds e.ruleIds _) _) ?_
  rfl

/-- The values that leave fields out are the ones that missing fields get. -/
theorem complete_written (e : Event) : record.complete e.written = .ok e := by
  have hfinish : Draft.finish e.written = .ok e := by
    obtain ⟨name, url, tags, kind, severity, username, message, mute, reason, version, ids⟩ := e
    simp only [written, Draft.finish, Option.getD_some]
    congr 2
    · split <;> simp_all
    · cases mute <;> rfl
    · split <;> simp_all
  show (Draft.finish e.written).mapError _ = _
  rw [hfinish]
  rfl

theorem numberFree_toValue (e : Event) : e.toValue.NumberFree := by
  have htags : (tagsValue e.tags).NumberFree := Value.numberFreeMembers_texts e.tags.entries
  have hids : (idsValue e.ruleIds).NumberFree := Value.numberFreeItems_texts e.ruleIds.toList
  have hkind : (kinds.toValue e.kind).NumberFree := by cases e.kind <;> trivial
  have hseverity : (severities.toValue e.severity).NumberFree := by cases e.severity <;> trivial
  refine Value.numberFreeMembers_append (Value.numberFreeMembers_append
    (Value.numberFreeMembers_append (Value.numberFreeMembers_append
      (Value.numberFreeMembers_append ?_ ?_) ?_) ?_) ?_) ?_
  · exact ⟨trivial, trivial, htags, hkind, trivial⟩
  · split
    · trivial
    · exact ⟨hseverity, trivial⟩
  · exact ⟨trivial, trivial, trivial⟩
  · split <;> trivial
  · split <;> trivial
  · exact ⟨trivial, hids, trivial⟩

/-- Decoding what an event is encoded as gives the event. -/
theorem ofJson_toJson (e : Event) : ofJson (Utf8.ofString e.toJson) = .ok e := by
  obtain ⟨ms, hv, hms⟩ := members_written e
  have hdecode : decode e.toValue.toTree = .ok e := by
    rw [hv, decode, Value.toTree, Record.decode, hms]
    exact complete_written e
  rw [ofJson, Json.decode, toJson, Document.ofBytes_toText e.numberFree_toValue, Document.decode]
  dsimp only
  rw [hdecode]
  rfl

/-- The text of an event determines it : every event is read back from its text, texts
agree of equal events only, and what was read from any text is read back from its own. -/
theorem toJson_lossless :
    (∀ e : Event, ofJson (Utf8.ofString e.toJson) = .ok e) ∧
      (∀ e e' : Event, e = e' ↔ Utf8.ofString e.toJson = Utf8.ofString e'.toJson) ∧
      ∀ (bytes : List UInt8) (e : Event), ofJson bytes = .ok e →
        ofJson (Utf8.ofString e.toJson) = .ok e := by
  refine ⟨ofJson_toJson, fun e e' => ⟨fun h => by rw [h], fun h => ?_⟩,
    fun _ e _ => ofJson_toJson e⟩
  have hread : ofJson (Utf8.ofString e'.toJson) = .ok e := by
    rw [← h]
    exact ofJson_toJson e
  exact Except.ok.inj (hread.symm.trans (ofJson_toJson e'))

end Event

end Courier
