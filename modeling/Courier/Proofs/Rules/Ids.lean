import Courier.Proofs.Rules.Format
import Courier.Proofs.Rules.Selection

/-!
# Rules under their ids

A rule carries its id, and a snapshot has it under a key. Rules are looked up by their keys, while
an event takes the ids that they carry : the ids lead to the rules (`Snapshot.FoundById`) exactly
if every rule stands under its own id (`Snapshot.foundById_iff`). The decoder does not see to that.
It is so if the text has it so, for the rules that no later one replaces
(`Snapshot.ofJson_foundById`), and else not (`Snapshot.ofJson_misfiled`).
-/

namespace Courier.Snapshot

open Json
open Entries (Last)

variable {s : Snapshot} {t : Tree} {cs : List Char} {ms : List (String × Tree)}

/-- Every rule stands under its own id. -/
def KeyedById (s : Snapshot) : Prop :=
  ∀ k r, s.get? k = some r → r.id = k

/-- The ids that rules carry lead to the rules. -/
structure FoundById (s : Snapshot) : Prop where
  /-- Every rule is found by its id. -/
  found : ∀ r ∈ s.rules.values, s.get? r.id = some r
  /-- No two rules have one id. -/
  distinct : (s.rules.values.map Rule.id).Nodup
  /-- The ids that an event takes are those of rules that are found by them. -/
  taken : ∀ (m : Matcher) (e e' : Event), e.reconcile s m = .ok e' → ∀ id ∈ e'.ruleIds,
    ∃ r, s.get? id = some r ∧ r.id = id ∧ m r e = .ok true

theorem get?_eq_some_iff {k : String} {r : Rule} : s.get? k = some r ↔ (k, r) ∈ s.rules.entries :=
  Entries.get?_eq_some_iff s.rules.ordered

theorem exists_key {r : Rule} (h : r ∈ s.rules.values) : ∃ k, s.get? k = some r := by
  obtain ⟨⟨k, r⟩, hmem, rfl⟩ := List.mem_map.1 h
  exact ⟨k, get?_eq_some_iff.2 hmem⟩

theorem KeyedById.get?_id (h : s.KeyedById) {r : Rule} (hr : r ∈ s.rules.values) :
    s.get? r.id = some r := by
  obtain ⟨k, hk⟩ := exists_key hr
  rwa [h k r hk]

/-- The ids of rules under their own ids are the keys. -/
theorem KeyedById.ids_eq (h : s.KeyedById) :
    s.rules.values.map Rule.id = s.rules.entries.map Prod.fst := by
  rw [Dict.values, List.map_map]
  exact List.map_congr_left fun e he => h e.1 e.2 (get?_eq_some_iff.2 he)

theorem KeyedById.foundById (h : s.KeyedById) : s.FoundById where
  found _ hr := h.get?_id hr
  distinct := by
    rw [h.ids_eq, List.Nodup, List.pairwise_map]
    exact s.rules.ordered.imp fun hlt => String.ne_of_lt hlt
  taken m e e' he id hid := by
    obtain ⟨ids, hsel, rfl⟩ := reconcile_eq_ok_iff.1 he
    obtain ⟨r, hr, hm, rfl⟩ := (hsel.mem_iff id).1 hid
    exact ⟨r, h.get?_id hr, rfl, hm⟩

/-- Ids lead to the rules exactly if the rules stand under their ids. -/
theorem foundById_iff : s.FoundById ↔ s.KeyedById := by
  refine ⟨fun h k r hk => ?_, KeyedById.foundById⟩
  have hmem : (k, r) ∈ s.rules.entries := get?_eq_some_iff.1 hk
  have hid : (r.id, r) ∈ s.rules.entries :=
    get?_eq_some_iff.1 (h.found r (List.mem_map_of_mem hmem))
  -- Under a key that is not its id the rule would stand twice, and its id with it.
  have hids := h.distinct
  rw [Dict.values, List.map_map] at hids
  exact congrArg Prod.fst (List.inj_on_of_nodup_map hids hid hmem rfl)

/-! ## What the text has -/

/-- The members that give the fields of a body : its own, or the items of an array under the names
of the fields. -/
inductive Gives : Tree → List (String × Tree) → Prop
  | object {ms : List (String × Tree)} : Gives (.object ms) ms
  | array {ts : List Tree} : Gives (.array ts) (["version", "rules"].zip ts)

theorem describes_of_decode (h : Spells t cs) (hs : decode t = .ok s) (hms : Gives t ms) :
    Describes ms s := by
  have hobject : ∀ {ms : List (String × Tree)} {cs : List Char}, Spells (.object ms) cs →
      decode (.object ms) = .ok s → Describes ms s := fun h hs =>
    (reads_iff_describes h).1 ((layout.decode_object_iff h.closed_members).1 hs)
  cases hms with
  | object => exact hobject h hs
  | @array ts =>
    obtain ⟨-, -, hs⟩ := (layout.decode_array_iff (by decide)).1 hs
    obtain ⟨cs', h'⟩ := @exists_spells_object (["version", "rules"].zip ts) fun m hm =>
      h.parts m.2 (List.of_mem_zip hm).2
    exact hobject h' hs

/-- Rules stand under their ids if those of the text do that count. -/
theorem keyedById_iff (h : Describes ms s) : s.KeyedById ↔
    ∀ es, under "rules" ms = [.object es] → ∀ k u r, Last es k u → Rule.Holds u r → r.id = k := by
  rcases h.rules with ⟨hnone, hempty⟩ | ⟨es, hes, hrules⟩
  · refine iff_of_true (fun k r hk => ?_) fun es hes => ?_
    · rw [get?, hempty, Dict.get?_empty] at hk
      cases hk
    · rw [hes] at hnone
      rcases hnone with hnone | hnone
      · cases hnone
      · cases List.singleton_inj.1 hnone
  · constructor
    · intro hkeyed es' hes' k u r hlast hr
      obtain rfl := Tree.object_injective (List.singleton_inj.1 (hes.symm.trans hes'))
      exact hkeyed k r ((hrules.last k r).2 ⟨u, hlast, hr⟩)
    · intro hall k r hk
      obtain ⟨u, hlast, hr⟩ := (hrules.last k r).1 hk
      exact hall es hes k u r hlast hr

/-- The rules of a body that is accepted are found by their ids exactly if every one stands under
its own, and that is if the text has each rule that no later one under its key replaces under its
own id. -/
theorem ofJson_foundById {bytes : List UInt8} (hs : ofJson bytes = .ok s) :
    (s.FoundById ↔ s.KeyedById) ∧
      ∀ {t cs ms}, bytes = Utf8.encode cs → Spells t cs → Gives t ms → (s.FoundById ↔
        ∀ es, under "rules" ms = [.object es] →
          ∀ k u r, Last es k u → Rule.Holds u r → r.id = k) := by
  refine ⟨foundById_iff, ?_⟩
  rintro t cs ms rfl h hms
  rw [ofJson, decode_of_spells h] at hs
  exact foundById_iff.trans (keyedById_iff (describes_of_decode h hs hms))

/-- A body as an array, with one rule as an array and one as an object under their ids. -/
theorem ofJson_foundById_positional :
    let body : Value := .arr [.str "v1", .obj [("1", .arr [.str "1", .str "load"]),
      ("2", .obj [("id", .str "2"), ("name", .str "disk")])]]
    ∃ s, ofJson (Utf8.encode body.render) = .ok s ∧ s.FoundById := by
  intro body
  have hfree : body.NumberFree := by
    simp [body, Value.NumberFree, Value.NumberFreeMembers, Value.NumberFreeItems]
  have h : Spells (.array [.text "v1", .object [("1", .array [.text "1", .text "load"]),
      ("2", .object [("id", .text "2"), ("name", .text "disk")])]]) body.render :=
    Value.spells_render hfree
  have hs : ofJson (Utf8.encode body.render) =
      .ok ⟨"v1", Dict.ofList [("1", ⟨"1", "load", none⟩), ("2", ⟨"2", "disk", none⟩)]⟩ := by
    rw [ofJson, decode_of_spells h]
    rfl
  refine ⟨_, hs, ((ofJson_foundById hs).2 rfl h .array).2 fun es hes k u r hlast hr => ?_⟩
  obtain rfl := Tree.object_injective (List.singleton_inj.1 hes)
  have hmem := hlast.mem
  simp only [List.mem_cons, Prod.mk.injEq, List.not_mem_nil, or_false] at hmem
  rcases hmem with ⟨rfl, rfl⟩ | ⟨rfl, rfl⟩
  · cases hr
    rfl
  · have hid := (Rule.holds_object_iff.1 hr).id
    simpa [under, Tree.text, eq_comm] using hid

/-- A rule with the id `7` under the key `a` : it is not found by its id, which events take. -/
theorem ofJson_misfiled :
    ∃ s r, ofJson (Utf8.encode (Value.obj [("version", .str "v"),
        ("rules", .obj [("a", .obj [("id", .str "7"), ("name", .str "n")])])]).render) = .ok s ∧
      r ∈ s.rules.values ∧ s.get? r.id = none ∧
      s.matchingIds (Event.bare "e" .unknown) Matcher.unfiltered = .ok (KeySet.ofList [r.id]) ∧
      ¬s.FoundById := by
  refine ⟨⟨"v", Dict.ofList [("a", ⟨"7", "n", none⟩)]⟩, ⟨"7", "n", none⟩, by decide +kernel,
    by decide, by decide, by decide, fun h => ?_⟩
  have hfound := h.found ⟨"7", "n", none⟩ (by decide)
  revert hfound
  decide

end Courier.Snapshot
