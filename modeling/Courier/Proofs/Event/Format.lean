import Courier.Proofs.Event.RoundTrip

/-!
# The format of events

`Event.Accepted` says which objects are events, `Event.Describes` which event an object is, both
in terms of what stands under each name. The decoder accepts exactly the former and gives
exactly the latter (`event_format`), for every text of an object. What is read therefore does not
depend on the order of the members, on blanks and escapes, or on members with other names.
-/

namespace Courier

open Json
open Entries (Last)

namespace Event

/-! ## The fields -/

namespace Field

/-- What a field holds. -/
def Held : Field → Type
  | .tags => Dict String
  | .kind => Kind
  | .severity => Severity
  | .mute => Option Bool
  | .ruleIds => KeySet
  | _ => String

/-- What is read for a field. -/
def read : (f : Field) → Decoder f.Held
  | .name | .url | .username | .message | .muteReason | .rulesVersion => Decode.text
  | .tags => Decode.dict Decode.text
  | .kind => kinds.decode
  | .severity => severities.decode
  | .mute => Decode.optional Decode.flag
  | .ruleIds => Decode.keySet

/-- What a field is if it is left out, and may be. -/
def default? : (f : Field) → Option f.Held
  | .name | .url | .username | .message | .rulesVersion => none
  | .tags => some (∅ : Dict String)
  | .kind => some Kind.unknown
  | .severity => some Severity.none
  | .mute => some (none : Option Bool)
  | .muteReason => some ""
  | .ruleIds => some (∅ : KeySet)

end Field

namespace Draft

/-- What a draft keeps for a field. -/
def get : (f : Field) → Draft → Option f.Held
  | .name, d => d.name
  | .url, d => d.url
  | .tags, d => d.tags
  | .kind, d => d.kind
  | .severity, d => d.severity
  | .username, d => d.username
  | .message, d => d.message
  | .mute, d => d.mute
  | .muteReason, d => d.muteReason
  | .rulesVersion, d => d.rulesVersion
  | .ruleIds, d => d.ruleIds

/-- A draft with a field. -/
def set : (f : Field) → f.Held → Draft → Draft
  | .name, v, d => { d with name := some v }
  | .url, v, d => { d with url := some v }
  | .tags, v, d => { d with tags := some v }
  | .kind, v, d => { d with kind := some v }
  | .severity, v, d => { d with severity := some v }
  | .username, v, d => { d with username := some v }
  | .message, v, d => { d with message := some v }
  | .mute, v, d => { d with mute := some v }
  | .muteReason, v, d => { d with muteReason := some v }
  | .rulesVersion, v, d => { d with rulesVersion := some v }
  | .ruleIds, v, d => { d with ruleIds := some v }

/-- The draft that keeps the given for each field. -/
def make (vs : (f : Field) → Option f.Held) : Draft where
  name := vs .name
  url := vs .url
  tags := vs .tags
  kind := vs .kind
  severity := vs .severity
  username := vs .username
  message := vs .message
  mute := vs .mute
  muteReason := vs .muteReason
  rulesVersion := vs .rulesVersion
  ruleIds := vs .ruleIds

end Draft

/-- A field of an event. -/
def part : (f : Field) → Event → f.Held
  | .name, e => e.name
  | .url, e => e.url
  | .tags, e => e.tags
  | .kind, e => e.kind
  | .severity, e => e.severity
  | .username, e => e.username
  | .message, e => e.message
  | .mute, e => e.mute
  | .muteReason, e => e.muteReason
  | .rulesVersion, e => e.rulesVersion
  | .ruleIds, e => e.ruleIds

/-- What holds of every field holds of the eleven. -/
theorem forall_field_iff {p : Field → Prop} : (∀ f, p f) ↔
    p .name ∧ p .url ∧ p .tags ∧ p .kind ∧ p .severity ∧ p .username ∧ p .message ∧ p .mute ∧
      p .muteReason ∧ p .rulesVersion ∧ p .ruleIds := by
  constructor
  · intro h
    simp only [h, and_self]
  · rintro ⟨h₁, h₂, h₃, h₄, h₅, h₆, h₇, h₈, h₉, h₁₀, h₁₁⟩ f
    cases f <;> assumption

theorem finish_eq_ok_iff (d : Draft) (e : Event) : d.finish = .ok e ↔
    ∀ f, (d.get f).or f.default? = some (part f e) := by
  have hparts : (∀ f, (d.get f).or f.default? = some (part f e)) ↔
      d.name.or none = some e.name ∧ d.url.or none = some e.url ∧
        d.tags.or (some ∅) = some e.tags ∧ d.kind.or (some .unknown) = some e.kind ∧
        d.severity.or (some .none) = some e.severity ∧ d.username.or none = some e.username ∧
        d.message.or none = some e.message ∧ d.mute.or (some none) = some e.mute ∧
        d.muteReason.or (some "") = some e.muteReason ∧
        d.rulesVersion.or none = some e.rulesVersion ∧ d.ruleIds.or (some ∅) = some e.ruleIds :=
    forall_field_iff
  have hor : ∀ {α : Type} (v? : Option α) (v w : α), v?.or (some v) = some w ↔ v?.getD v = w := by
    intro α v? v w
    cases v? <;> simp
  rw [hparts]
  simp only [Option.or_none, hor]
  -- A draft that lacks a required field is not finished, and has no such event.
  obtain ⟨name, url, tags, kind, severity, username, message, mute, reason, version, ids⟩ := d
  obtain ⟨name', url', tags', kind', severity', username', message', mute', reason', version',
    ids'⟩ := e
  rcases name with _ | name
  · simp [Draft.finish]
  rcases url with _ | url
  · simp [Draft.finish]
  rcases username with _ | username
  · simp [Draft.finish]
  rcases message with _ | message
  · simp [Draft.finish]
  rcases version with _ | version
  · simp [Draft.finish]
  simp [Draft.finish]

/-- An event field by field. -/
def layout : record.Layout where
  Held := Field.Held
  read := Field.read
  get := Draft.get
  set := Draft.set
  make := Draft.make
  default? := Field.default?
  part := part
  field?_label := field?_label
  fill_eq f t d := by cases f <;> rfl
  filled_eq f d := by cases f <;> rfl
  get_blank f := by cases f <;> rfl
  get_set f v d := by cases f <;> rfl
  get_set_of_ne f g v d h := by
    cases f <;> cases g <;> first | rfl | exact absurd rfl h
  get_make vs f := by cases f <;> rfl
  make_get d := rfl
  finish_eq_ok_iff := finish_eq_ok_iff

/-! ## The format -/

/-- Which objects are events : each field is there at most once, those that have to be there are,
and each holds what it should. -/
structure Accepted (ms : List (String × Tree)) : Prop where
  once : ∀ f : Field, (under f.label ms).length ≤ 1
  name : ∃ s, .text s ∈ under "name" ms
  url : ∃ s, .text s ∈ under "url" ms
  username : ∃ s, .text s ∈ under "username" ms
  message : ∃ s, .text s ∈ under "message" ms
  rulesVersion : ∃ s, .text s ∈ under "rules_version" ms
  tags : ∀ t ∈ under "tags" ms, ∃ es, t = .object es ∧ ∀ m ∈ es, ∃ s, m.2 = .text s
  kind : ∀ t ∈ under "type" ms,
    t = .null ∨ ∃ (s : String) (k : Kind), t = .text s ∧ k.token? = some s
  severity : ∀ t ∈ under "severity" ms,
    t = .null ∨ ∃ (s : String) (v : Severity), t = .text s ∧ v.token? = some s
  mute : ∀ t ∈ under "mute" ms, t = .null ∨ ∃ b, t = .bool b
  muteReason : ∀ t ∈ under "mute_reason" ms, ∃ s, t = .text s
  ruleIds : ∀ t ∈ under "rule_ids" ms, ∃ ks : List String, t = .array (ks.map .text)

/-- Which event an object is. -/
structure Describes (ms : List (String × Tree)) (e : Event) : Prop where
  name : under "name" ms = [.text e.name]
  url : under "url" ms = [.text e.url]
  username : under "username" ms = [.text e.username]
  message : under "message" ms = [.text e.message]
  rulesVersion : under "rules_version" ms = [.text e.rulesVersion]
  tags : (under "tags" ms = [] ∧ e.tags = ∅) ∨ ∃ es, under "tags" ms = [.object es] ∧
    (∀ m ∈ es, ∃ s, m.2 = .text s) ∧ ∀ k s, e.tags.get? k = some s ↔ Last es k (.text s)
  kind : ((under "type" ms = [] ∨ under "type" ms = [.null]) ∧ e.kind = .unknown) ∨
    ∃ s, under "type" ms = [.text s] ∧ e.kind.token? = some s
  severity : ((under "severity" ms = [] ∨ under "severity" ms = [.null]) ∧ e.severity = .none) ∨
    ∃ s, under "severity" ms = [.text s] ∧ e.severity.token? = some s
  mute : ((under "mute" ms = [] ∨ under "mute" ms = [.null]) ∧ e.mute = none) ∨
    ∃ b, under "mute" ms = [.bool b] ∧ e.mute = some b
  muteReason : (under "mute_reason" ms = [] ∧ e.muteReason = "") ∨
    under "mute_reason" ms = [.text e.muteReason]
  ruleIds : (under "rule_ids" ms = [] ∧ e.ruleIds = ∅) ∨ ∃ ks : List String,
    under "rule_ids" ms = [.array (ks.map .text)] ∧ ∀ k, k ∈ e.ruleIds ↔ k ∈ ks

section

variable {ms : List (String × Tree)}

theorem reads_iff_describes {e : Event} :
    (∀ f, layout.Reads ms f (part f e)) ↔ Describes ms e := by
  have hreason : Says "mute_reason" ms Decode.text (some "") e.muteReason ↔
      (under "mute_reason" ms = [] ∧ e.muteReason = "") ∨
        under "mute_reason" ms = [.text e.muteReason] := by
    simp [Says, Decode.text_eq_ok_iff, eq_comm (b := e.muteReason)]
  have htags : Says "tags" ms (Decode.dict Decode.text) (some ∅) e.tags ↔ _ :=
    says_some_iff fun t => Decode.dict_text_eq_ok_iff
  have hkind : Says "type" ms kinds.decode (some .unknown) e.kind ↔ _ :=
    says_null_iff fun t => Vocabulary.decode_eq_ok_iff
  have hseverity : Says "severity" ms severities.decode (some .none) e.severity ↔ _ :=
    says_null_iff fun t => Vocabulary.decode_eq_ok_iff
  have hmute : Says "mute" ms (Decode.optional Decode.flag) (some none) e.mute ↔ _ :=
    says_null_iff fun t => Decode.optional_flag_eq_ok_iff
  have hids : Says "rule_ids" ms Decode.keySet (some ∅) e.ruleIds ↔ _ :=
    says_some_iff fun t => Decode.keySet_eq_ok_iff
  simp only [kinds_parse?_iff] at hkind
  simp only [severities_parse?_iff] at hseverity
  constructor
  · intro h
    exact ⟨says_text_iff.1 (h .name), says_text_iff.1 (h .url), says_text_iff.1 (h .username),
      says_text_iff.1 (h .message), says_text_iff.1 (h .rulesVersion), htags.1 (h .tags),
      hkind.1 (h .kind), hseverity.1 (h .severity), hmute.1 (h .mute), hreason.1 (h .muteReason),
      hids.1 (h .ruleIds)⟩
  · intro h f
    cases f with
    | name => exact says_text_iff.2 h.name
    | url => exact says_text_iff.2 h.url
    | tags => exact htags.2 h.tags
    | kind => exact hkind.2 h.kind
    | severity => exact hseverity.2 h.severity
    | username => exact says_text_iff.2 h.username
    | message => exact says_text_iff.2 h.message
    | mute => exact hmute.2 h.mute
    | muteReason => exact hreason.2 h.muteReason
    | rulesVersion => exact says_text_iff.2 h.rulesVersion
    | ruleIds => exact hids.2 h.ruleIds

/-- The fields can be had one by one. -/
theorem exists_reads_iff : (∃ e, ∀ f, layout.Reads ms f (part f e)) ↔
    ∀ f, ∃ v, layout.Reads ms f v := by
  constructor
  · rintro ⟨e, h⟩ f
    exact ⟨part f e, h f⟩
  · intro h
    choose vs hvs using h
    refine ⟨⟨vs .name, vs .url, vs .tags, vs .kind, vs .severity, vs .username, vs .message,
      vs .mute, vs .muteReason, vs .rulesVersion, vs .ruleIds⟩, fun f => ?_⟩
    cases f <;> exact hvs _

theorem exists_reads_iff_accepted :
    (∃ e, ∀ f, layout.Reads ms f (part f e)) ↔ Accepted ms := by
  have hreason : (∃ s, Says "mute_reason" ms Decode.text (some "") s) ↔ _ := exists_says_some_iff
  have htags : (∃ D, Says "tags" ms (Decode.dict Decode.text) (some ∅) D) ↔ _ :=
    exists_says_some_iff
  have hkind : (∃ k, Says "type" ms kinds.decode (some .unknown) k) ↔ _ := exists_says_some_iff
  have hseverity : (∃ v, Says "severity" ms severities.decode (some .none) v) ↔ _ :=
    exists_says_some_iff
  have hmute : (∃ b?, Says "mute" ms (Decode.optional Decode.flag) (some none) b?) ↔ _ :=
    exists_says_some_iff
  have hids : (∃ ids, Says "rule_ids" ms Decode.keySet (some ∅) ids) ↔ _ := exists_says_some_iff
  simp only [Decode.text_eq_ok_iff] at hreason
  simp only [Decode.exists_dict_iff, Decode.text_eq_ok_iff] at htags
  simp only [Vocabulary.exists_decode_iff, kinds_parse?_iff] at hkind
  simp only [Vocabulary.exists_decode_iff, severities_parse?_iff] at hseverity
  simp only [Decode.exists_optional_flag_iff] at hmute
  simp only [Decode.exists_keySet_iff] at hids
  rw [exists_reads_iff]
  constructor
  · intro h
    exact {
      once := fun f => (h f).elim fun v hv => hv.length_le
      name := (exists_says_text_iff.1 (h .name)).2
      url := (exists_says_text_iff.1 (h .url)).2
      username := (exists_says_text_iff.1 (h .username)).2
      message := (exists_says_text_iff.1 (h .message)).2
      rulesVersion := (exists_says_text_iff.1 (h .rulesVersion)).2
      tags := (htags.1 (h .tags)).2
      kind := (hkind.1 (h .kind)).2
      severity := (hseverity.1 (h .severity)).2
      mute := (hmute.1 (h .mute)).2
      muteReason := (hreason.1 (h .muteReason)).2
      ruleIds := (hids.1 (h .ruleIds)).2 }
  · intro h f
    have hone := h.once f
    cases f with
    | name => exact exists_says_text_iff.2 ⟨hone, h.name⟩
    | url => exact exists_says_text_iff.2 ⟨hone, h.url⟩
    | tags => exact htags.2 ⟨hone, h.tags⟩
    | kind => exact hkind.2 ⟨hone, h.kind⟩
    | severity => exact hseverity.2 ⟨hone, h.severity⟩
    | username => exact exists_says_text_iff.2 ⟨hone, h.username⟩
    | message => exact exists_says_text_iff.2 ⟨hone, h.message⟩
    | mute => exact hmute.2 ⟨hone, h.mute⟩
    | muteReason => exact hreason.2 ⟨hone, h.muteReason⟩
    | rulesVersion => exact exists_says_text_iff.2 ⟨hone, h.rulesVersion⟩
    | ruleIds => exact hids.2 ⟨hone, h.ruleIds⟩

/-- The event decoder accepts exactly its format. A text of an object is read if the object is
accepted, and as the event that the object describes; members in another order and with other
names besides make no difference, whatever these hold. -/
theorem event_format {cs : List Char} (h : Spells (.object ms) cs) :
    ((∃ e, ofJson (Utf8.encode cs) = .ok e) ↔ Accepted ms) ∧
      (∀ e, ofJson (Utf8.encode cs) = .ok e ↔ Describes ms e) ∧
      ∀ {extra ms' : List (String × Tree)} {cs' : List Char}, Spells (.object ms') cs' →
        ms'.Perm (ms ++ extra) → (∀ m ∈ extra, ∀ f : Field, m.1 ≠ f.label) →
        ∀ e, ofJson (Utf8.encode cs') = .ok e ↔ ofJson (Utf8.encode cs) = .ok e := by
  have hread : ∀ e, ofJson (Utf8.encode cs) = .ok e ↔ ∀ f, layout.Reads ms f (part f e) := by
    intro e
    rw [ofJson, decode_of_spells h]
    exact layout.decode_object_iff h.closed_members
  refine ⟨?_, fun e => (hread e).trans reads_iff_describes, ?_⟩
  · simp only [hread, exists_reads_iff_accepted]
  · intro extra ms' cs' h' hperm hextra e
    have hunder : ∀ f : Field, (under f.label ms').Perm (under f.label ms) := by
      intro f
      have hnil : under f.label extra = [] := under_eq_nil fun m hm => hextra m hm f
      simpa [under_append, hnil] using under_perm f.label hperm
    rw [ofJson, ofJson, decode_of_spells h, decode_of_spells h']
    exact layout.decode_object_perm h.closed_members h'.closed_members hunder

/-- An event with a tag twice, and its members in reverse after one with another name. -/
theorem event_format_reversed :
    ofJson (Utf8.encode (Value.obj [("ttl", .arr [.null, .obj []]), ("rules_version", .str "v1"),
        ("message", .str "down"), ("username", .str ""), ("url", .str ""), ("name", .str "web"),
        ("tags", .obj [("host", .str "a"), ("host", .str "b")])]).render) =
      .ok ((((bare "web" .unknown).withTag "host" "b").withMessage "down").withRules "v1" ∅) := by
  have htext : Spells (.object [("tags", .object [("host", .text "a"), ("host", .text "b")]),
      ("name", .text "web"), ("url", .text ""), ("username", .text ""), ("message", .text "down"),
      ("rules_version", .text "v1")]) _ :=
    @Value.spells_render (.obj [("tags", .obj [("host", .str "a"), ("host", .str "b")]),
      ("name", .str "web"), ("url", .str ""), ("username", .str ""), ("message", .str "down"),
      ("rules_version", .str "v1")]) (by simp [Value.NumberFree, Value.NumberFreeMembers])
  have hreversed : Spells (.object (("ttl", .array [.null, .object []]) ::
      [("tags", .object [("host", .text "a"), ("host", .text "b")]), ("name", .text "web"),
        ("url", .text ""), ("username", .text ""), ("message", .text "down"),
        ("rules_version", .text "v1")].reverse)) _ :=
    @Value.spells_render (.obj [("ttl", .arr [.null, .obj []]), ("rules_version", .str "v1"),
      ("message", .str "down"), ("username", .str ""), ("url", .str ""), ("name", .str "web"),
      ("tags", .obj [("host", .str "a"), ("host", .str "b")])])
      (by simp [Value.NumberFree, Value.NumberFreeMembers, Value.NumberFreeItems])
  have hperm : ∀ (m : String × Tree) ms, (m :: ms.reverse).Perm (ms ++ [m]) := fun m ms =>
    ((List.reverse_perm ms).cons m).trans (List.perm_append_singleton m ms).symm
  have hextra : ∀ m ∈ [("ttl", Tree.array [.null, .object []])], ∀ f : Field, m.1 ≠ f.label := by
    intro m hm f
    obtain rfl := List.mem_singleton.1 hm
    cases f <;> decide
  refine ((event_format htext).2.2 hreversed (hperm _ _) hextra _).2
    (((event_format htext).2.1 _).2 ?_)
  have htags : Decode.dict Decode.text (.object [("host", .text "a"), ("host", .text "b")]) =
      .ok ((∅ : Dict String).insert "host" "b") := rfl
  obtain ⟨es, hes, htags⟩ := Decode.dict_text_eq_ok_iff.1 htags
  exact ⟨rfl, rfl, rfl, rfl, rfl, .inr ⟨es, congrArg (fun t => [t]) hes, htags⟩,
    .inl ⟨.inl rfl, rfl⟩, .inl ⟨.inl rfl, rfl⟩, .inl ⟨.inl rfl, rfl⟩, .inl ⟨rfl, rfl⟩,
    .inl ⟨rfl, rfl⟩⟩

end

end Event

end Courier
