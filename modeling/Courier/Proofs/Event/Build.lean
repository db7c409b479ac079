import Courier.Proofs.Dict
import Courier.Proofs.Event.RoundTrip
import Mathlib.Data.List.Induction
import Mathlib.Logic.Relation

/-!
# Events built call by call

An event is built from a bare one by edits : calls that each set a part of it, and steps that write
it and read it back. `build` makes the edits one after the other.

Reading back changes nothing, so an edit does not fail (`apply_eq`). Each part of an event follows
the edits of that part alone (`Tracks`), so that after any edits it is what the last of these set
(`Tracks.foldl`). The event is settled by the last edit of each part (`Settled`), the same for all
orders of the edits of different parts and of the ids in a list of rules (`build_settled`).
-/

namespace Courier.Event

/-! ## Edits -/

/-- What is done to an event on the way. -/
inductive Edit where
  | url (url : String)
  | tag (key value : String)
  | severity (severity : Severity)
  | username (username : String)
  | message (message : String)
  | mute (muted : Bool) (reason : String)
  | rules (version : String) (ids : List String)
  /-- The event is written as JSON and read back. -/
  | reread

/-- The parts of an event that can be set, each as a whole. -/
inductive Part where
  | url
  | tag (key : String)
  | severity
  | username
  | message
  /-- The flag and its reason. -/
  | mute
  /-- The version and the ids. -/
  | rules

namespace Edit

/-- The event after an edit, unless it cannot be read back. -/
def apply (e : Event) : Edit → Except Json.Fault Event
  | .url u => .ok (e.withUrl u)
  | .tag key value => .ok (e.withTag key value)
  | .severity s => .ok (e.withSeverity s)
  | .username u => .ok (e.withUsername u)
  | .message m => .ok (e.withMessage m)
  | .mute muted reason => .ok (e.withMute muted reason)
  | .rules version ids => .ok (e.withRules version (.ofList ids))
  | .reread => ofJson (Utf8.ofString e.toJson)

/-- The part that an edit sets. -/
def part? : Edit → Option Part
  | .url _ => some .url
  | .tag key _ => some (.tag key)
  | .severity _ => some .severity
  | .username _ => some .username
  | .message _ => some .message
  | .mute .. => some .mute
  | .rules .. => some .rules
  | .reread => none

/-! ### What an edit sets -/

/-- The address that an edit sets. -/
def url? : Edit → Option String
  | .url u => some u
  | _ => none

/-- The value that an edit gives a tag. -/
def tag? (key : String) : Edit → Option String
  | .tag key' value => if key' = key then some value else none
  | _ => none

/-- The severity that an edit sets. -/
def severity? : Edit → Option Severity
  | .severity s => some s
  | _ => none

/-- The user that an edit sets. -/
def username? : Edit → Option String
  | .username u => some u
  | _ => none

/-- The message that an edit sets. -/
def message? : Edit → Option String
  | .message m => some m
  | _ => none

/-- The mute flag and the reason that an edit sets. -/
def mute? : Edit → Option (Option Bool × String)
  | .mute muted reason => some (some muted, reason)
  | _ => none

/-- The rule version and the set of ids that an edit sets. -/
def rules? : Edit → Option (String × KeySet)
  | .rules version ids => some (version, .ofList ids)
  | _ => none

end Edit

/-- The event after edits, one after the other. -/
def build (e : Event) : List Edit → Except Json.Fault Event
  | [] => .ok e
  | s :: rest =>
    match s.apply e with
    | .error f => .error f
    | .ok e' => build e' rest

/-- What the last of the edits that set something sets. -/
def last? {α : Type} (set? : Edit → Option α) (steps : List Edit) : Option α :=
  (steps.filterMap set?).getLast?

/-- Every part of the event is what its last edit set, or not set if there was none. The mute flag
and its reason are from one edit, and so are the rule version and the ids. -/
structure Settled (name : String) (kind : Kind) (steps : List Edit) (e : Event) : Prop where
  name : e.name = name
  kind : e.kind = kind
  url : e.url = (last? Edit.url? steps).getD ""
  tags : ∀ key, e.tags.get? key = last? (Edit.tag? key) steps
  severity : e.severity = (last? Edit.severity? steps).getD .none
  username : e.username = (last? Edit.username? steps).getD ""
  message : e.message = (last? Edit.message? steps).getD ""
  mute : (e.mute, e.muteReason) = (last? Edit.mute? steps).getD (none, "")
  rules : (e.rulesVersion, e.ruleIds) = (last? Edit.rules? steps).getD ("", ∅)

/-- Edits that differ in one place : in the order of two that do not set the same part, in ids that
are listed in another order or another number of times, or in reading the event back. -/
inductive Rearranged : List Edit → List Edit → Prop
  | swapped (before after : List Edit) {s t : Edit} (h : s.part? ≠ t.part?) :
      Rearranged (before ++ s :: t :: after) (before ++ t :: s :: after)
  | listed (before after : List Edit) (version : String) {ids ids' : List String}
      (h : ∀ k, k ∈ ids ↔ k ∈ ids') :
      Rearranged (before ++ .rules version ids :: after) (before ++ .rules version ids' :: after)
  | reread (before after : List Edit) :
      Rearranged (before ++ .reread :: after) (before ++ after)

/-! ## Edits do not fail -/

/-- The event after an edit, where reading back changes nothing. -/
def Edit.set (e : Event) : Edit → Event
  | .url u => e.withUrl u
  | .tag key value => e.withTag key value
  | .severity s => e.withSeverity s
  | .username u => e.withUsername u
  | .message m => e.withMessage m
  | .mute muted reason => e.withMute muted reason
  | .rules version ids => e.withRules version (.ofList ids)
  | .reread => e

theorem apply_eq (e : Event) (s : Edit) : s.apply e = .ok (s.set e) := by
  cases s with
  | reread => exact ofJson_toJson e
  | _ => rfl

theorem build_eq (steps : List Edit) (e : Event) : build e steps = .ok (steps.foldl Edit.set e) := by
  induction steps generalizing e with
  | nil => rfl
  | cons s rest ih => rw [build, apply_eq, List.foldl_cons]; exact ih (s.set e)

/-! ## The last edit of a part -/

section Last

variable {α β : Type}

theorem last?_concat (set? : Edit → Option α) (steps : List Edit) (s : Edit) :
    last? set? (steps ++ [s]) = (set? s).or (last? set? steps) := by
  rw [last?, List.filterMap_append]
  cases hs : set? s with
  | none => simp [hs, last?]
  | some v => simp [hs]

theorem last?_map (set? : Edit → Option α) (f : α → β) (steps : List Edit) :
    last? (fun s => (set? s).map f) steps = (last? set? steps).map f := by
  rw [last?, ← List.map_filterMap, List.getLast?_map, last?]

theorem last?_none (steps : List Edit) : last? (fun _ => (none : Option α)) steps = none := by
  simp [last?]

/-- A view of events that an edit sets where `set?` gives a value, and leaves alone otherwise. -/
def Tracks (view : Event → α) (set? : Edit → Option α) : Prop :=
  ∀ e s, view (s.set e) = (set? s).getD (view e)

/-- After any edits a view is what the last edit of it set. -/
theorem Tracks.foldl {view : Event → α} {set? : Edit → Option α} (h : Tracks view set?)
    (e : Event) (steps : List Edit) :
    view (steps.foldl Edit.set e) = (last? set? steps).getD (view e) := by
  induction steps using List.reverseRecOn with
  | nil => rfl
  | append_singleton steps s ih =>
    rw [List.foldl_concat, h, ih, last?_concat]
    cases set? s <;> rfl

/-- A view that no edit sets. -/
theorem Tracks.foldl_none {view : Event → α} (h : Tracks view fun _ => none) (e : Event)
    (steps : List Edit) : view (steps.foldl Edit.set e) = view e := by
  rw [h.foldl, last?_none, Option.getD_none]

end Last

/-! ## Parts follow their edits -/

theorem tracks_name : Tracks Event.name fun _ => none := fun e s => by cases s <;> rfl

theorem tracks_kind : Tracks Event.kind fun _ => none := fun e s => by cases s <;> rfl

theorem tracks_url : Tracks Event.url Edit.url? := fun e s => by cases s <;> rfl

theorem tracks_tag (key : String) :
    Tracks (fun e => e.tags.get? key) fun s => (s.tag? key).map some := by
  intro e s
  cases s with
  | tag key' value =>
    refine (Dict.get?_insert e.tags key' key value).trans ?_
    by_cases hkey : key' = key
    · simp [Edit.tag?, hkey]
    · simp [Edit.tag?, hkey]
  | _ => rfl

theorem tracks_severity : Tracks Event.severity Edit.severity? := fun e s => by cases s <;> rfl

theorem tracks_username : Tracks Event.username Edit.username? := fun e s => by cases s <;> rfl

theorem tracks_message : Tracks Event.message Edit.message? := fun e s => by cases s <;> rfl

theorem tracks_mute : Tracks (fun e => (e.mute, e.muteReason)) Edit.mute? := fun e s => by
  cases s <;> rfl

theorem tracks_rules : Tracks (fun e => (e.rulesVersion, e.ruleIds)) Edit.rules? := fun e s => by
  cases s <;> rfl

/-- The edits settle the event. -/
theorem settled_foldl (name : String) (kind : Kind) (steps : List Edit) :
    Settled name kind steps (steps.foldl Edit.set (bare name kind)) where
  name := tracks_name.foldl_none _ steps
  kind := tracks_kind.foldl_none _ steps
  url := tracks_url.foldl _ steps
  tags key := by
    have htag := (tracks_tag key).foldl (bare name kind) steps
    rw [last?_map] at htag
    refine htag.trans ?_
    cases last? (Edit.tag? key) steps <;> rfl
  severity := tracks_severity.foldl _ steps
  username := tracks_username.foldl _ steps
  message := tracks_message.foldl _ steps
  mute := tracks_mute.foldl _ steps
  rules := tracks_rules.foldl _ steps

/-- There is one event that edits settle. -/
theorem Settled.unique {name : String} {kind : Kind} {steps : List Edit} {e e' : Event}
    (h : Settled name kind steps e) (h' : Settled name kind steps e') : e = e' := by
  have htags : e.tags = e'.tags := Dict.ext_get? fun k v => by rw [h.tags, h'.tags]
  have hmute := Prod.mk.inj (h.mute.trans h'.mute.symm)
  have hrules := Prod.mk.inj (h.rules.trans h'.rules.symm)
  cases e
  cases e'
  rw [Event.mk.injEq]
  exact ⟨h.name.trans h'.name.symm, h.url.trans h'.url.symm, htags, h.kind.trans h'.kind.symm,
    h.severity.trans h'.severity.symm, h.username.trans h'.username.symm,
    h.message.trans h'.message.symm, hmute.1, hmute.2, hrules.1, hrules.2⟩

/-! ## Edits of different parts -/

/-- Edits of different parts commute. -/
theorem set_comm {s t : Edit} (h : s.part? ≠ t.part?) (e : Event) :
    t.set (s.set e) = s.set (t.set e) := by
  cases s <;> cases t
  case tag.tag key value key' value' =>
    have hkey : key' ≠ key := fun heq => h (by rw [heq]; rfl)
    have htags : (e.tags.insert key value).insert key' value' =
        (e.tags.insert key' value').insert key value :=
      Dict.ext (Entries.insert_comm e.tags.ordered hkey)
    exact congrArg (fun tags => { e with tags }) htags
  all_goals first | rfl | exact absurd rfl h

theorem Rearranged.foldl_eq {steps steps' : List Edit} (h : Rearranged steps steps') (e : Event) :
    steps.foldl Edit.set e = steps'.foldl Edit.set e := by
  cases h with
  | swapped before after h => simp only [List.foldl_append, List.foldl_cons, set_comm h]
  | listed before after version h =>
    simp only [List.foldl_append, List.foldl_cons, Edit.set, KeySet.ofList_congr h]
  | reread before after => simp only [List.foldl_append, List.foldl_cons, Edit.set]

theorem foldl_eq_of_rearranged {steps steps' : List Edit}
    (h : Relation.EqvGen Rearranged steps steps') (e : Event) :
    steps.foldl Edit.set e = steps'.foldl Edit.set e := by
  induction h with
  | rel _ _ h => exact h.foldl_eq e
  | refl _ => rfl
  | symm _ _ _ ih => exact ih.symm
  | trans _ _ _ _ _ ih ih' => exact ih.trans ih'

/-- Whatever edits are made of a bare event, they do not fail, and they settle the event : each
part is what the last edit of it set. Edits of different parts commute, reading the event back
changes nothing, and neither do the order of rule ids and their repetition : the event stays the
same, and with it its text. -/
theorem build_settled (name : String) (kind : Kind) (steps : List Edit) :
    ∃ e, build (bare name kind) steps = .ok e ∧ (∀ e', Settled name kind steps e' ↔ e' = e) ∧
      ∀ steps', Relation.EqvGen Rearranged steps steps' →
        build (bare name kind) steps' = .ok e ∧
          (build (bare name kind) steps').map toJson = .ok e.toJson := by
  have hsettled := settled_foldl name kind steps
  refine ⟨_, build_eq steps _, fun e' => ⟨fun h => h.unique hsettled, ?_⟩, fun steps' h => ?_⟩
  · rintro rfl
    exact hsettled
  · rw [build_eq, ← foldl_eq_of_rearranged h]
    exact ⟨rfl, rfl⟩

end Courier.Event
