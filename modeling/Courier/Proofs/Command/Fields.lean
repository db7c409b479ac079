import Courier.Proofs.Command.SendRequest
import Courier.Proofs.Dict
import Courier.Proofs.Steps

/-!
# Events made of fields

Fields make an event in steps (`toEvent_eq`) : every tag gives an entry, the first that does not is
what is wrong, and only then a reason to mute has to come with a word on muting. The event has the
fields as they are given and leads every key to the value of the last tag that gives it one
(`SendRequest.Makes`). A dictionary whose keys can stand in front of an `=` comes back from its
entries, in whatever order these are given as tags (`toEvent_exact`).
-/

namespace Courier

namespace SendRequest

variable {r : SendRequest} {e : Event} {entries : List (String × String)}

/-- Each tag gives an entry. -/
abbrev GivesEach (tags : List String) (entries : List (String × String)) : Prop :=
  List.Forall₂ (fun tag x => Gives tag x.1 x.2) tags entries

/-- The entry of a tag. -/
def entry (tag : String) : Except SendRequestError (String × String) :=
  (parseTag? tag).elim (.error (.invalidTag tag)) .ok

theorem entry_eq_ok_iff {tag : String} {x : String × String} :
    entry tag = .ok x ↔ Gives tag x.1 x.2 := by
  rw [entry, elim_error_eq_ok_iff, ← parseTag?_eq_some_iff]

theorem entry_eq_error_iff {tag : String} {reason : SendRequestError} :
    entry tag = .error reason ↔ Malformed tag ∧ reason = .invalidTag tag := by
  rw [entry, elim_error_eq_error_iff, parseTag?_eq_none_iff, eq_comm (a := reason)]

theorem exists_entry_iff {tag : String} : (∃ x, entry tag = .ok x) ↔ ¬Malformed tag := by
  simp only [entry_eq_ok_iff, Prod.exists, exists_gives_iff]

/-- Tags are added all at once, or not at all. -/
theorem addTags_eq (e : Event) (tags : List String) : addTags e tags =
    (tags.mapM entry).map fun entries =>
      { e with tags := entries.foldl (fun d x => d.insert x.1 x.2) e.tags } := by
  induction tags generalizing e with
  | nil => rfl
  | cons tag rest ih =>
    rw [addTags, List.mapM_cons, entry]
    cases parseTag? tag with
    | none => rfl
    | some x =>
      refine (ih _).trans ?_
      cases rest.mapM entry <;> rfl

/-- The event with the fields of a request and tags. -/
def eventWith (r : SendRequest) (tags : Dict String) : Event where
  name := r.name
  url := r.url
  tags := tags
  kind := r.kind
  severity := r.severity
  username := r.username
  message := r.message
  mute := r.mute
  muteReason := r.muteReason
  rulesVersion := ""
  ruleIds := ∅

/-- The steps in which fields make an event. -/
theorem toEvent_eq (r : SendRequest) : r.toEvent = (r.tags.mapM entry >>= fun entries =>
    if r.mute = none ∧ r.muteReason ≠ "" then .error .reasonWithoutMute
    else .ok (r.eventWith (Dict.ofList entries))) := by
  simp only [← Dict.foldl_insert_empty]
  obtain ⟨name, kind, severity, url, tags, username, message, mute, reason⟩ := r
  unfold toEvent
  dsimp only
  rw [addTags_eq]
  cases tags.mapM entry with
  | error _ => rfl
  | ok entries =>
    cases mute with
    | some muted => rfl
    | none =>
      by_cases hreason : reason = ""
      · subst hreason
        rfl
      · simp [Except.map, bind, Except.bind, hreason]

/-- What an event made of fields is. -/
structure Makes (r : SendRequest) (e : Event) : Prop where
  name : e.name = r.name
  kind : e.kind = r.kind
  severity : e.severity = r.severity
  url : e.url = r.url
  username : e.username = r.username
  message : e.message = r.message
  mute : e.mute = r.mute
  muteReason : e.muteReason = r.muteReason
  rulesVersion : e.rulesVersion = ""
  ruleIds : e.ruleIds = ∅
  /-- Each tag gives an entry, and each key leads to its value in the last entry with it. -/
  tags : ∃ entries, GivesEach r.tags entries ∧
    ∀ key value, e.tags.get? key = some value ↔ Entries.Last entries key value

theorem mapM_entry_eq_ok_iff {tags : List String} :
    tags.mapM entry = .ok entries ↔ GivesEach tags entries := by
  simp only [mapM_eq_ok_iff, entry_eq_ok_iff]

theorem makes_eventWith (h : GivesEach r.tags entries) :
    r.Makes (r.eventWith (Dict.ofList entries)) where
  name := rfl
  kind := rfl
  severity := rfl
  url := rfl
  username := rfl
  message := rfl
  mute := rfl
  muteReason := rfl
  rulesVersion := rfl
  ruleIds := rfl
  tags := ⟨entries, h, fun _ _ => Dict.get?_ofList⟩

/-- The event of fields, if they make one. -/
theorem toEvent_eq_ok_iff : r.toEvent = .ok e ↔ (r.muteReason ≠ "" → r.mute ≠ none) ∧
    ∃ entries, GivesEach r.tags entries ∧ e = r.eventWith (Dict.ofList entries) := by
  have hmuted : (r.muteReason ≠ "" → r.mute ≠ none) ↔ ¬(r.mute = none ∧ r.muteReason ≠ "") := by
    tauto
  rw [toEvent_eq, bind_eq_ok_iff, hmuted]
  simp only [mapM_entry_eq_ok_iff]
  by_cases hmute : r.mute = none ∧ r.muteReason ≠ ""
  · simp [hmute]
  · simp [hmute, eq_comm (a := e)]

/-- Fields make an event unless a tag gives no entry or a reason comes without a word on muting. -/
theorem exists_toEvent_iff : (∃ e, r.toEvent = .ok e) ↔
    (∀ tag ∈ r.tags, ¬Malformed tag) ∧ (r.muteReason ≠ "" → r.mute ≠ none) := by
  have hentries : (∃ entries, r.tags.mapM entry = .ok entries) ↔
      ∀ tag ∈ r.tags, ¬Malformed tag := by
    simp only [exists_mapM_iff, exists_entry_iff]
  simp only [toEvent_eq_ok_iff, ← hentries, mapM_entry_eq_ok_iff]
  constructor
  · rintro ⟨e, hmute, entries, h, -⟩
    exact ⟨⟨entries, h⟩, hmute⟩
  · rintro ⟨⟨entries, h⟩, hmute⟩
    exact ⟨_, hmute, entries, h, rfl⟩

/-- What is wrong with fields is the first tag that gives no entry, and only else the reason. -/
theorem toEvent_reason_iff {reason : SendRequestError} : r.toEvent = .error reason ↔
    (∃ tag, FirstWithout (¬Malformed ·) r.tags tag ∧ reason = .invalidTag tag) ∨
      (∀ tag ∈ r.tags, ¬Malformed tag) ∧ (r.mute = none ∧ r.muteReason ≠ "") ∧
        reason = .reasonWithoutMute := by
  rw [toEvent_eq, bind_eq_error_iff, mapM_eq_error_iff]
  simp only [exists_entry_iff, entry_eq_error_iff]
  refine or_congr ⟨?_, ?_⟩ ?_
  · rintro ⟨tag, hfirst, -, hreason⟩
    exact ⟨tag, hfirst, hreason⟩
  · rintro ⟨tag, hfirst, hreason⟩
    exact ⟨tag, hfirst, not_not.1 hfirst.lacks, hreason⟩
  · simp only [← exists_entry_iff, ← exists_mapM_iff]
    by_cases hmute : r.mute = none ∧ r.muteReason ≠ ""
    · simp [hmute, eq_comm (a := reason)]
    · simp [hmute]

/-- The fields that make no event. -/
theorem toEvent_eq_error_iff : (∃ reason, r.toEvent = .error reason) ↔
    (∃ tag ∈ r.tags, Malformed tag) ∨ r.mute = none ∧ r.muteReason ≠ "" := by
  have hfails : (∃ reason, r.toEvent = .error reason) ↔ ¬∃ e, r.toEvent = .ok e := by
    cases r.toEvent <;> simp
  rw [hfails, exists_toEvent_iff, not_and_or]
  simp only [not_forall, not_not, exists_prop, ne_eq, and_comm]

/-! ## Entries as tags -/

/-- A text that can stand as a key in front of an `=`. -/
structure IsKey (key : String) : Prop where
  trimmed : Text.trim key = key
  nonempty : key ≠ ""
  unsigned : '=' ∉ key.toList

/-- The tag of an entry. -/
def tagOf (x : String × String) : String :=
  x.1 ++ "=" ++ x.2

theorem IsKey.gives {x : String × String} (h : IsKey x.1) : Gives (tagOf x) x.1 x.2 := by
  refine ⟨x.1.toList, by simp [tagOf], h.unsigned, ?_, h.nonempty⟩
  rw [← Text.trim_eq_iff, h.trimmed]

/-- A dictionary of keys comes back from its entries as tags, in whatever order they are given. -/
theorem toEvent_of_perm {d : Dict String} (hkeys : ∀ x ∈ d.entries, IsKey x.1)
    (h : entries.Perm d.entries) (htags : r.tags = entries.map tagOf)
    (hmute : r.muteReason ≠ "" → r.mute ≠ none) : r.toEvent = .ok (r.eventWith d) := by
  refine toEvent_eq_ok_iff.2 ⟨hmute, entries, ?_, by rw [Dict.ofList_of_perm h]⟩
  rw [htags, GivesEach, List.forall₂_map_left_iff, List.forall₂_same]
  exact fun x hx => (hkeys x (h.mem_iff.1 hx)).gives

/-- Fields make an event exactly if no tag is without a key and no reason to mute without a word on
muting. The event has the fields as they are given. What is wrong with other fields is the first
tag without a key, and the reason only if there is none. A dictionary of keys comes back from its
entries as tags, in whatever order they are given. -/
theorem toEvent_exact (r : SendRequest) :
    ((∃ e, r.toEvent = .ok e) ↔
      (∀ tag ∈ r.tags, ¬Malformed tag) ∧ (r.muteReason ≠ "" → r.mute ≠ none)) ∧
    (∀ e, r.toEvent = .ok e → r.Makes e) ∧
    (∀ reason, r.toEvent = .error reason ↔
      (∃ tag, FirstWithout (¬Malformed ·) r.tags tag ∧ reason = .invalidTag tag) ∨
        (∀ tag ∈ r.tags, ¬Malformed tag) ∧ (r.mute = none ∧ r.muteReason ≠ "") ∧
          reason = .reasonWithoutMute) ∧
    ∀ (d : Dict String) (entries : List (String × String)), (∀ x ∈ d.entries, IsKey x.1) →
      entries.Perm d.entries → r.tags = entries.map tagOf →
        (r.muteReason ≠ "" → r.mute ≠ none) → ∃ e, r.toEvent = .ok e ∧ e.tags = d := by
  refine ⟨exists_toEvent_iff, fun e h => ?_, fun reason => toEvent_reason_iff, ?_⟩
  · obtain ⟨-, entries, hentries, rfl⟩ := toEvent_eq_ok_iff.1 h
    exact makes_eventWith hentries
  · intro d entries hkeys hperm htags hmute
    exact ⟨r.eventWith d, toEvent_of_perm hkeys hperm htags hmute, rfl⟩

/-- A request with nothing but tags. -/
def tagged (tags : List String) : SendRequest :=
  ⟨"n", .unknown, .none, "", tags, "", "", none, ""⟩

/-- Entries in another order than that of the keys, one with an `=` in its value; and the first of
two tags without a key. -/
theorem toEvent_exact_tagged :
    (∃ e, (tagged ["b c=", "a=x=y"]).toEvent = .ok e ∧
      e.tags = Dict.ofList [("a", "x=y"), ("b c", "")]) ∧
    (tagged ["a=b", " =x", "y"]).toEvent = .error (.invalidTag " =x") := by
  have hkeys : ∀ x ∈ [("a", "x=y"), ("b c", "")], IsKey x.1 := by
    intro x hx
    rcases List.mem_pair.1 hx with rfl | rfl <;>
    exact ⟨by decide, by decide, by decide⟩
  refine ⟨(toEvent_exact _).2.2.2 (Dict.ofList [("a", "x=y"), ("b c", "")])
    [("b c", ""), ("a", "x=y")] hkeys (List.Perm.swap _ _ _) rfl (by decide), ?_⟩
  refine ((toEvent_exact _).2.2.1 _).2 (.inl ⟨" =x", ⟨["a=b"], ["y"], rfl, ?_, ?_⟩, rfl⟩)
  · exact not_not.2 (.unnamed [' '] ['x'] rfl (List.forall_mem_singleton.2 rfl))
  · intro tag htag
    rw [List.mem_singleton.1 htag, ← exists_gives_iff]
    exact ⟨"a", "b", parseTag?_eq_some_iff.1 (by decide)⟩

end SendRequest

end Courier
