import Courier.Proofs.Json.Accept
import Courier.Proofs.Json.Read
import Courier.Rules.Snapshot
import Mathlib.Logic.Relation
import Mathlib.Tactic.MkIffOfInductiveProp

/-!
# The format of rule sets

`Rule.Holds` says which trees are rules, and which, `Snapshot.Accepted` which objects are rule
sets, and `Snapshot.Describes` which rule set an object is. The decoder accepts exactly the accepted
and gives exactly the described (`Snapshot.snapshot_format`), for every text of an object.

Two levels of records enclose a dictionary : a rule that a later one under its key replaces has to
be a rule all the same. `Snapshot.Step` lists the rewritings that make no difference.
-/

namespace Courier

open Json
open Entries (Last)

variable {ms ms' : List (String × Tree)} {t u : Tree} {cs : List Char}

/-! ## Rules -/

namespace Rule

/-- What a field holds. -/
def Field.Held : Field → Type
  | .id | .name => String
  | .filter => Option String

theorem forall_field_iff {p : Field → Prop} : (∀ f, p f) ↔ p .id ∧ p .name ∧ p .filter := by
  refine ⟨fun h => ⟨h .id, h .name, h .filter⟩, ?_⟩
  rintro ⟨hid, hname, hfilter⟩ f
  cases f <;> assumption

theorem finish_eq_ok_iff (d : Draft) (r : Rule) : d.finish = .ok r ↔
    d.id.or none = some r.id ∧ d.name.or none = some r.name ∧
      d.filter.or (some none) = some r.filterText := by
  obtain ⟨id, name, filter⟩ := d
  obtain ⟨id', name', filter'⟩ := r
  rcases id with _ | id
  · simp [Draft.finish]
  rcases name with _ | name
  · simp [Draft.finish]
  rcases filter with _ | filter
  · simp [Draft.finish]
  · simp [Draft.finish]

/-- A rule field by field. -/
def layout : record.Layout where
  Held := Field.Held
  read
    | .id | .name => Decode.text
    | .filter => Decode.optional Decode.text
  get
    | .id, d => d.id
    | .name, d => d.name
    | .filter, d => d.filter
  set
    | .id, v, d => { d with id := some v }
    | .name, v, d => { d with name := some v }
    | .filter, v, d => { d with filter := some v }
  make vs := ⟨vs .id, vs .name, vs .filter⟩
  default?
    | .id | .name => none
    | .filter => some (none : Option String)
  part
    | .id, r => r.id
    | .name, r => r.name
    | .filter, r => r.filterText
  field?_label f := by cases f <;> rfl
  fill_eq f t d := by cases f <;> rfl
  filled_eq f d := by cases f <;> rfl
  get_blank f := by cases f <;> rfl
  get_set f v d := by cases f <;> rfl
  get_set_of_ne f g v d h := by
    cases f <;> cases g <;> first | rfl | exact absurd rfl h
  get_make vs f := by cases f <;> rfl
  make_get d := rfl
  finish_eq_ok_iff d r := by
    rw [forall_field_iff]
    exact finish_eq_ok_iff d r

/-- Which rule an object is. -/
@[mk_iff]
structure Describes (ms : List (String × Tree)) (r : Rule) : Prop where
  id : under "id" ms = [.text r.id]
  name : under "name" ms = [.text r.name]
  filter : ((under "object_filter_expr" ms = [] ∨ under "object_filter_expr" ms = [.null]) ∧
      r.filterText = none) ∨
    ∃ s, under "object_filter_expr" ms = [.text s] ∧ r.filterText = some s

/-- Which rule a tree is : an object, or an array of the values in order, of which the filter may
be left out. -/
inductive Holds : Tree → Rule → Prop
  | object {ms : List (String × Tree)} {r : Rule} : Describes ms r → Holds (.object ms) r
  | pair {id name : String} : Holds (.array [.text id, .text name]) ⟨id, name, none⟩
  | unfiltered {id name : String} :
      Holds (.array [.text id, .text name, .null]) ⟨id, name, none⟩
  | filtered {id name filter : String} :
      Holds (.array [.text id, .text name, .text filter]) ⟨id, name, some filter⟩

theorem decode_object_iff (hms : ∀ m ∈ ms, m.2.isClosed = true) {r : Rule} :
    decode (.object ms) = .ok r ↔ Describes ms r := by
  have hfilter : Says "object_filter_expr" ms (Decode.optional Decode.text) (some none)
      r.filterText ↔ _ := says_null_iff fun t => Decode.optional_text_eq_ok_iff
  refine (layout.decode_object_iff hms).trans ?_
  constructor
  · intro h
    exact ⟨says_text_iff.1 (h .id), says_text_iff.1 (h .name), hfilter.1 (h .filter)⟩
  · intro h f
    cases f with
    | id => exact says_text_iff.2 h.id
    | name => exact says_text_iff.2 h.name
    | filter => exact hfilter.2 h.filter

theorem decode_array_iff {ts : List Tree} (hts : ∀ t ∈ ts, t.isClosed = true) {r : Rule} :
    decode (.array ts) = .ok r ↔ Holds (.array ts) r := by
  have hzip : ∀ m ∈ (record.fields.map record.label).zip ts, m.2.isClosed = true :=
    fun m hm => hts m.2 (List.of_mem_zip hm).2
  have hdecode : decode (.array ts) = .ok r ↔ ts.length ≤ 3 ∧
      (∀ f ∈ record.fields.drop ts.length, record.omissible f = true) ∧
        Describes ((record.fields.map record.label).zip ts) r := by
    refine (layout.decode_array_iff (by decide)).trans ?_
    rw [← decode_object_iff hzip]
    exact Iff.rfl
  rw [hdecode]
  obtain ⟨id, name, filter⟩ := r
  constructor
  · rintro ⟨hlen, homit, hid, hname, hfilter⟩
    -- The first two fields cannot be left out, and there is none for a fourth item.
    rcases ts with _ | ⟨t₁, _ | ⟨t₂, _ | ⟨t₃, _ | ⟨t₄, ts⟩⟩⟩⟩
    · exact absurd (homit .id (by simp [record])) (by simp [record])
    · exact absurd (homit .name (by simp [record])) (by simp [record])
    · obtain rfl : t₁ = .text id := List.singleton_inj.1 hid
      obtain rfl : t₂ = .text name := List.singleton_inj.1 hname
      rcases hfilter with ⟨-, rfl⟩ | ⟨s, hs, -⟩
      · exact .pair
      · cases hs
    · obtain rfl : t₁ = .text id := List.singleton_inj.1 hid
      obtain rfl : t₂ = .text name := List.singleton_inj.1 hname
      rcases hfilter with ⟨hnil | hnull, rfl⟩ | ⟨s, hs, rfl⟩
      · cases hnil
      · obtain rfl : t₃ = .null := List.singleton_inj.1 hnull
        exact .unfiltered
      · obtain rfl : t₃ = .text s := List.singleton_inj.1 hs
        exact .filtered
    · simp only [List.length_cons] at hlen
      omega
  · rintro (_ | _ | _ | _)
    · exact ⟨by simp, by simp [record], rfl, rfl, .inl ⟨.inl rfl, rfl⟩⟩
    · exact ⟨by simp, by simp [record], rfl, rfl, .inl ⟨.inr rfl, rfl⟩⟩
    · next s => exact ⟨by simp, by simp [record], rfl, rfl, .inr ⟨s, rfl, rfl⟩⟩

/-- The rule decoder accepts the trees that are rules. -/
theorem decode_eq_ok_iff (h : Spells t cs) {r : Rule} : decode t = .ok r ↔ Holds t r := by
  constructor
  · intro hr
    rcases Record.of_decode_eq_ok hr with ⟨ms, rfl⟩ | ⟨ts, rfl⟩
    · exact .object ((decode_object_iff h.closed_members).1 hr)
    · exact (decode_array_iff h.closed_items).1 hr
  · intro hr
    cases hr with
    | object hr => exact (decode_object_iff h.closed_members).2 hr
    | _ => exact (decode_array_iff h.closed_items).2 (by constructor)

/-- A rewriting of a tree that makes no difference to the rule. -/
inductive Step : Tree → Tree → Prop
  | order {ms ms' : List (String × Tree)} : ms.Perm ms' → Step (.object ms) (.object ms')
  | other {ms : List (String × Tree)} {m : String × Tree} : (∀ f : Field, m.1 ≠ f.label) →
      Step (.object ms) (.object (m :: ms))
  | null {ms : List (String × Tree)} : under "object_filter_expr" ms = [] →
      Step (.object ms) (.object (("object_filter_expr", .null) :: ms))
  | item {id name : Tree} : Step (.array [id, name]) (.array [id, name, .null])

theorem describes_perm (h : ∀ f : Field, (under f.label ms').Perm (under f.label ms)) {r : Rule} :
    Describes ms' r ↔ Describes ms r := by
  have hid : ∀ t, under "id" ms' = [t] ↔ under "id" ms = [t] :=
    under_eq_singleton_of_perm (h .id)
  have hname : ∀ t, under "name" ms' = [t] ↔ under "name" ms = [t] :=
    under_eq_singleton_of_perm (h .name)
  have hfilter : ∀ t, under "object_filter_expr" ms' = [t] ↔ under "object_filter_expr" ms = [t] :=
    under_eq_singleton_of_perm (h .filter)
  have hnil : under "object_filter_expr" ms' = [] ↔ under "object_filter_expr" ms = [] :=
    under_eq_nil_of_perm (h .filter)
  simp only [describes_iff, hid, hname, hfilter, hnil]

theorem holds_object_iff {r : Rule} : Holds (.object ms) r ↔ Describes ms r := by
  refine ⟨fun h => ?_, .object⟩
  generalize ht : Tree.object ms = t at h
  cases h with
  | object h => exact Tree.object_injective ht ▸ h
  | _ => cases ht

/-- Rewritten trees are the same rules. -/
theorem holds_of_step (h : Step t u) {r : Rule} : Holds t r ↔ Holds u r := by
  cases h with
  | order h =>
    rw [holds_object_iff, holds_object_iff]
    exact describes_perm fun f => under_perm f.label h
  | other h =>
    rw [holds_object_iff, holds_object_iff]
    exact describes_perm fun f => by rw [under_cons_of_ne (h f)]
  | null h =>
    have hid := under_cons_of_ne (show "object_filter_expr" ≠ "id" by decide) .null
    have hname := under_cons_of_ne (show "object_filter_expr" ≠ "name" by decide) .null
    rw [holds_object_iff, holds_object_iff]
    simp [describes_iff, hid, hname, under_cons_self, h, Tree.text]
  | item =>
    constructor
    · intro h
      cases h
      exact .unfiltered
    · intro h
      cases h
      exact .pair

end Rule

namespace Snapshot

/-! ## Rule sets -/

/-- What a field holds. -/
def Field.Held : Field → Type
  | .version => String
  | .rules => Dict Rule

/-- What is read for the rules. -/
def readRules (t : Tree) : Except Fault (Dict Rule) :=
  (Decode.optional (Decode.dict Rule.decode) t).map fun v => v.getD ∅

theorem forall_field_iff {p : Field → Prop} : (∀ f, p f) ↔ p .version ∧ p .rules := by
  refine ⟨fun h => ⟨h .version, h .rules⟩, ?_⟩
  rintro ⟨hversion, hrules⟩ f
  cases f <;> assumption

theorem finish_eq_ok_iff (d : Draft) (s : Snapshot) : d.finish = .ok s ↔
    d.version.or none = some s.version ∧ d.rules.or (some ∅) = some s.rules := by
  obtain ⟨version, rules⟩ := d
  obtain ⟨version', rules'⟩ := s
  rcases version with _ | version
  · simp [Draft.finish]
  rcases rules with _ | rules
  · simp [Draft.finish]
  · simp [Draft.finish]

/-- A rule set field by field. -/
def layout : record.Layout where
  Held := Field.Held
  read
    | .version => Decode.text
    | .rules => readRules
  get
    | .version, d => d.version
    | .rules, d => d.rules
  set
    | .version, v, d => { d with version := some v }
    | .rules, v, d => { d with rules := some v }
  make vs := ⟨vs .version, vs .rules⟩
  default?
    | .version => none
    | .rules => some (∅ : Dict Rule)
  part
    | .version, s => s.version
    | .rules, s => s.rules
  field?_label f := by cases f <;> rfl
  fill_eq f t d := by
    cases f with
    | version => rfl
    | rules =>
      show (Decode.optional (Decode.dict Rule.decode) t).map _ = (readRules t).map _
      rw [readRules]
      cases Decode.optional (Decode.dict Rule.decode) t <;> rfl
  filled_eq f d := by cases f <;> rfl
  get_blank f := by cases f <;> rfl
  get_set f v d := by cases f <;> rfl
  get_set_of_ne f g v d h := by
    cases f <;> cases g <;> first | rfl | exact absurd rfl h
  get_make vs f := by cases f <;> rfl
  make_get d := rfl
  finish_eq_ok_iff d s := by
    rw [forall_field_iff]
    exact finish_eq_ok_iff d s

/-- Which rules the members of an object are : each member is a rule, also one that a later one
under its key replaces, and each key leads to the last rule under it. -/
@[mk_iff]
structure DescribesRules (es : List (String × Tree)) (rules : Dict Rule) : Prop where
  valid : ∀ e ∈ es, ∃ r, Rule.Holds e.2 r
  last : ∀ k r, rules.get? k = some r ↔ ∃ t, Last es k t ∧ Rule.Holds t r

/-- Which objects are rule sets. -/
structure Accepted (ms : List (String × Tree)) : Prop where
  once : ∀ f : Field, (under f.label ms).length ≤ 1
  version : ∃ s, .text s ∈ under "version" ms
  rules : ∀ t ∈ under "rules" ms,
    t = .null ∨ ∃ es, t = .object es ∧ ∀ e ∈ es, ∃ r, Rule.Holds e.2 r

/-- Which rule set an object is. -/
@[mk_iff]
structure Describes (ms : List (String × Tree)) (s : Snapshot) : Prop where
  version : under "version" ms = [.text s.version]
  rules : ((under "rules" ms = [] ∨ under "rules" ms = [.null]) ∧ s.rules = ∅) ∨
    ∃ es, under "rules" ms = [.object es] ∧ DescribesRules es s.rules

theorem readRules_eq_ok_iff {rules : Dict Rule} : readRules t = .ok rules ↔
    (t = .null ∧ rules = ∅) ∨ ∃ es, t = .object es ∧
      Decode.dict Rule.decode (.object es) = .ok rules := by
  have hnull : ∀ rules, Decode.dict Rule.decode .null ≠ .ok rules := by simp [Decode.dict]
  have hread : readRules t = .ok rules ↔
      ∃ rules?, Decode.optional (Decode.dict Rule.decode) t = .ok rules? ∧
        rules?.getD ∅ = rules := by
    rw [readRules]
    cases Decode.optional (Decode.dict Rule.decode) t <;> simp [Except.map]
  simp only [hread, Decode.optional_eq_ok_iff hnull]
  constructor
  · rintro ⟨_, ⟨rfl, rfl⟩ | ⟨_, hrules, rfl⟩, rfl⟩
    · exact .inl ⟨rfl, rfl⟩
    · obtain ⟨es, rfl, -⟩ := Decode.dict_eq_ok_iff.1 hrules
      exact .inr ⟨es, rfl, hrules⟩
  · rintro (⟨rfl, rfl⟩ | ⟨es, rfl, hrules⟩)
    · exact ⟨none, .inl ⟨rfl, rfl⟩, rfl⟩
    · exact ⟨some rules, .inr ⟨rules, hrules, rfl⟩, rfl⟩

/-- The members of an object in a text are read as the rules that they are. -/
theorem decode_member {es : List (String × Tree)} (h : Spells (.object es) cs) {e : String × Tree}
    (he : e ∈ es) (r : Rule) : Rule.decode e.2 = .ok r ↔ Rule.Holds e.2 r := by
  obtain ⟨cs', h'⟩ := h.member he
  exact Rule.decode_eq_ok_iff h'

theorem dict_eq_ok_iff {es : List (String × Tree)} (h : Spells (.object es) cs)
    {rules : Dict Rule} :
    Decode.dict Rule.decode (.object es) = .ok rules ↔ DescribesRules es rules := by
  have hlast : ∀ k r, (∃ t, Last es k t ∧ Rule.decode t = .ok r) ↔
      ∃ t, Last es k t ∧ Rule.Holds t r := by
    intro k r
    exact exists_congr fun t => and_congr_right fun ht => decode_member h ht.mem r
  constructor
  · intro hrules
    obtain ⟨es', hes', hvalid, hget⟩ := Decode.dict_eq_ok_iff.1 hrules
    obtain rfl := Tree.object_injective hes'
    exact ⟨fun e he => (hvalid e he).imp fun r => (decode_member h he r).1,
      fun k r => (hget k r).trans (hlast k r)⟩
  · intro hrules
    exact Decode.dict_eq_ok_iff.2 ⟨es, rfl,
      fun e he => (hrules.valid e he).imp fun r => (decode_member h he r).2,
      fun k r => (hrules.last k r).trans (hlast k r).symm⟩

theorem exists_readRules_iff (h : Spells t cs) : (∃ rules, readRules t = .ok rules) ↔
    t = .null ∨ ∃ es, t = .object es ∧ ∀ e ∈ es, ∃ r, Rule.Holds e.2 r := by
  simp only [readRules_eq_ok_iff]
  constructor
  · rintro ⟨rules, ⟨rfl, -⟩ | ⟨es, rfl, hrules⟩⟩
    · exact .inl rfl
    · exact .inr ⟨es, rfl, ((dict_eq_ok_iff h).1 hrules).valid⟩
  · rintro (rfl | ⟨es, rfl, hvalid⟩)
    · exact ⟨∅, .inl ⟨rfl, rfl⟩⟩
    · have hdecode : ∀ e ∈ es, ∃ r, Rule.decode e.2 = .ok r := fun e he =>
        (hvalid e he).imp fun r => (decode_member h he r).2
      obtain ⟨rules, hrules⟩ := Decode.exists_dict_iff.2 ⟨es, rfl, hdecode⟩
      exact ⟨rules, .inr ⟨es, rfl, hrules⟩⟩

theorem reads_iff_describes (h : Spells (.object ms) cs) {s : Snapshot} :
    (∀ f, layout.Reads ms f (layout.part f s)) ↔ Describes ms s := by
  have hrules : Says "rules" ms readRules (some ∅) s.rules ↔
      ((under "rules" ms = [] ∨ under "rules" ms = [.null]) ∧ s.rules = ∅) ∨
        ∃ es, under "rules" ms = [.object es] ∧ DescribesRules es s.rules := by
    refine (says_null_iff fun t => readRules_eq_ok_iff).trans (or_congr Iff.rfl ?_)
    refine exists_congr fun es => and_congr_right fun hes => ?_
    obtain ⟨cs', h'⟩ := h.under (t := .object es) (by rw [hes]; simp)
    exact dict_eq_ok_iff h'
  constructor
  · intro hs
    exact ⟨says_text_iff.1 (hs .version), hrules.1 (hs .rules)⟩
  · intro hs f
    cases f with
    | version => exact says_text_iff.2 hs.version
    | rules => exact hrules.2 hs.rules

theorem exists_reads_iff_accepted (h : Spells (.object ms) cs) :
    (∃ s, ∀ f, layout.Reads ms f (layout.part f s)) ↔ Accepted ms := by
  have hrules : (∃ rules, Says "rules" ms readRules (some ∅) rules) ↔
      (under "rules" ms).length ≤ 1 ∧ ∀ t ∈ under "rules" ms,
        t = .null ∨ ∃ es, t = .object es ∧ ∀ e ∈ es, ∃ r, Rule.Holds e.2 r := by
    refine exists_says_some_iff.trans (and_congr Iff.rfl (forall₂_congr fun t ht => ?_))
    obtain ⟨cs', h'⟩ := h.under ht
    exact exists_readRules_iff h'
  constructor
  · rintro ⟨s, hs⟩
    exact ⟨fun f => (hs f).length_le, (exists_says_text_iff.1 ⟨_, hs .version⟩).2,
      (hrules.1 ⟨_, hs .rules⟩).2⟩
  · intro haccepted
    obtain ⟨version, hversion⟩ :=
      exists_says_text_iff.2 ⟨haccepted.once .version, haccepted.version⟩
    obtain ⟨rules, hrules⟩ := hrules.2 ⟨haccepted.once .rules, haccepted.rules⟩
    exact ⟨⟨version, rules⟩, fun f => by cases f <;> assumption⟩

/-! ## Rewritings -/

/-- A rewriting of an object that makes no difference to the rule set. -/
inductive Step : List (String × Tree) → List (String × Tree) → Prop
  | order {ms ms' : List (String × Tree)} : ms.Perm ms' → Step ms ms'
  | other {ms : List (String × Tree)} {m : String × Tree} : (∀ f : Field, m.1 ≠ f.label) →
      Step ms (m :: ms)
  | null {ms : List (String × Tree)} : under "rules" ms = [] → Step ms (("rules", .null) :: ms)
  | empty {ms : List (String × Tree)} : under "rules" ms = [] →
      Step ms (("rules", .object []) :: ms)
  | rules {ms es es' : List (String × Tree)} : (es.map Prod.fst).Nodup → es.Perm es' →
      Step (("rules", .object es) :: ms) (("rules", .object es') :: ms)
  | rule {ms before after : List (String × Tree)} {k : String} {t u : Tree} : Rule.Step t u →
      Step (("rules", .object (before ++ (k, t) :: after)) :: ms)
        (("rules", .object (before ++ (k, u) :: after)) :: ms)

section

variable {es es' before after : List (String × Tree)} {rules : Dict Rule}

/-- Rules with distinct keys are the same in any order. -/
theorem describesRules_perm (hes : (es.map Prod.fst).Nodup) (h : es.Perm es') :
    DescribesRules es rules ↔ DescribesRules es' rules := by
  have hes' : (es'.map Prod.fst).Nodup := (h.map Prod.fst).nodup_iff.1 hes
  simp only [describesRules_iff, Entries.last_iff_mem hes, Entries.last_iff_mem hes', h.mem_iff]

/-- Only which rules they are counts for the values of the members. -/
theorem describesRules_rule (k : String) (h : ∀ r, Rule.Holds t r ↔ Rule.Holds u r) :
    DescribesRules (before ++ (k, t) :: after) rules ↔
      DescribesRules (before ++ (k, u) :: after) rules := by
  have hfirst : ∀ (w : Tree) (k' : String) (r : Rule),
      (∃ v, (k = k' ∧ w = v ∧ k' ∉ after.map Prod.fst) ∧ Rule.Holds v r) ↔
        k = k' ∧ k' ∉ after.map Prod.fst ∧ Rule.Holds w r := by
    intro w k' r
    constructor
    · rintro ⟨_, ⟨hk, rfl, hafter⟩, hr⟩
      exact ⟨hk, hafter, hr⟩
    · rintro ⟨hk, hafter, hr⟩
      exact ⟨w, ⟨hk, rfl, hafter⟩, hr⟩
  simp only [describesRules_iff, List.forall_mem_append, List.forall_mem_cons,
    Entries.last_append_iff, Entries.last_cons_iff, or_and_right, exists_or, hfirst, h,
    List.map_cons]

theorem describesRules_nil : DescribesRules [] rules ↔ rules = ∅ := by
  constructor
  · intro h
    refine Dict.ext_get? fun k r => ?_
    simp [h.last, Entries.not_last_nil, Dict.get?_empty]
  · rintro rfl
    exact ⟨by simp, by simp [Entries.not_last_nil, Dict.get?_empty]⟩

theorem describes_perm (h : ∀ f : Field, (under f.label ms').Perm (under f.label ms))
    {s : Snapshot} : Describes ms' s ↔ Describes ms s := by
  have hversion : ∀ t, under "version" ms' = [t] ↔ under "version" ms = [t] :=
    under_eq_singleton_of_perm (h .version)
  have hrules : ∀ t, under "rules" ms' = [t] ↔ under "rules" ms = [t] :=
    under_eq_singleton_of_perm (h .rules)
  have hnil : under "rules" ms' = [] ↔ under "rules" ms = [] := under_eq_nil_of_perm (h .rules)
  simp only [describes_iff, hversion, hrules, hnil]

theorem under_version_cons (t : Tree) : under "version" (("rules", t) :: ms) = under "version" ms :=
  under_cons_of_ne (by decide) t ms

theorem describes_cons_iff {s : Snapshot} : Describes (("rules", .object es) :: ms) s ↔
    under "version" ms = [.text s.version] ∧ under "rules" ms = [] ∧ DescribesRules es s.rules := by
  rw [describes_iff, under_version_cons, under_cons_self]
  refine and_congr Iff.rfl ?_
  constructor
  · rintro (⟨h | h, -⟩ | ⟨es', hes', hrules⟩)
    · cases h
    · cases (List.cons.inj h).1
    · obtain ⟨hes, hnil⟩ := List.cons.inj hes'
      exact ⟨hnil, Tree.object_injective hes ▸ hrules⟩
  · rintro ⟨hnil, hrules⟩
    exact .inr ⟨es, by rw [hnil], hrules⟩

/-- Rewritten objects are the same rule sets. -/
theorem describes_of_step (h : Step ms ms') {s : Snapshot} : Describes ms s ↔ Describes ms' s := by
  cases h with
  | order h => exact (describes_perm fun f => (under_perm f.label h).symm).symm
  | other h => exact (describes_perm fun f => by rw [under_cons_of_ne (h f)]).symm
  | null h => simp [describes_iff, under_version_cons, under_cons_self, h, Tree.object]
  | empty h =>
    rw [describes_cons_iff, describesRules_nil]
    simp [describes_iff, h]
  | rules hes h => rw [describes_cons_iff, describes_cons_iff, describesRules_perm hes h]
  | rule h =>
    rw [describes_cons_iff, describes_cons_iff, describesRules_rule _ fun _ => Rule.holds_of_step h]

/-- The rule set decoder accepts exactly its format. A text of an object is read if the object is
accepted, and as the rule set that the object describes; it makes no difference if the rules are
missing, `null` or none, in which order members and rules are, whether a rule lacks a filter or
has `null` for it, and what other members there are. -/
theorem snapshot_format (h : Spells (.object ms) cs) :
    ((∃ s, ofJson (Utf8.encode cs) = .ok s) ↔ Accepted ms) ∧
      (∀ s, ofJson (Utf8.encode cs) = .ok s ↔ Describes ms s) ∧
      ∀ {ms' : List (String × Tree)} {cs' : List Char}, Spells (.object ms') cs' →
        Relation.EqvGen Step ms ms' →
        ∀ s, ofJson (Utf8.encode cs') = .ok s ↔ ofJson (Utf8.encode cs) = .ok s := by
  have hread : ∀ {ms cs}, Spells (.object ms) cs → ∀ s, ofJson (Utf8.encode cs) = .ok s ↔
      ∀ f, layout.Reads ms f (layout.part f s) := by
    intro ms cs h s
    rw [ofJson, decode_of_spells h]
    exact layout.decode_object_iff h.closed_members
  refine ⟨?_, fun s => (hread h s).trans (reads_iff_describes h), ?_⟩
  · simp only [hread h, exists_reads_iff_accepted h]
  · intro ms' cs' h' hsteps s
    have hdescribes : Describes ms s ↔ Describes ms' s := by
      clear h h'
      induction hsteps with
      | rel ms ms' hstep => exact describes_of_step hstep
      | refl ms => exact Iff.rfl
      | symm ms ms' _ ih => exact ih.symm
      | trans ms₁ ms₂ ms₃ _ _ ih ih' => exact ih.trans ih'
    rw [hread h, hread h', reads_iff_describes h, reads_iff_describes h', hdescribes]

/-- Rules the other way round, one of them with `null` for its filter, and a further member. -/
theorem snapshot_format_rewritten :
    ofJson (Utf8.encode (Value.obj [("etag", .null),
        ("rules", .obj [("b", .arr [.str "2", .str "disk", .null]),
          ("a", .obj [("id", .str "1"), ("name", .str "load")])]),
        ("version", .str "v1")]).render) =
      .ok ⟨"v1", Dict.ofList [("a", ⟨"1", "load", none⟩), ("b", ⟨"2", "disk", none⟩)]⟩ := by
  have h : Spells (.object [("version", .text "v1"),
      ("rules", .object [("a", .object [("id", .text "1"), ("name", .text "load")]),
        ("b", .array [.text "2", .text "disk"])])]) _ :=
    @Value.spells_render (.obj [("version", .str "v1"),
      ("rules", .obj [("a", .obj [("id", .str "1"), ("name", .str "load")]),
        ("b", .arr [.str "2", .str "disk"])])])
      (by simp [Value.NumberFree, Value.NumberFreeMembers, Value.NumberFreeItems])
  have h' : Spells (.object [("etag", .null),
      ("rules", .object [("b", .array [.text "2", .text "disk", .null]),
        ("a", .object [("id", .text "1"), ("name", .text "load")])]), ("version", .text "v1")]) _ :=
    @Value.spells_render (.obj [("etag", .null),
      ("rules", .obj [("b", .arr [.str "2", .str "disk", .null]),
        ("a", .obj [("id", .str "1"), ("name", .str "load")])]), ("version", .str "v1")])
      (by simp [Value.NumberFree, Value.NumberFreeMembers, Value.NumberFreeItems])
  have hetag : ∀ f : Field, "etag" ≠ f.label := by
    intro f
    cases f <;> decide
  refine ((snapshot_format h).2.2 h' ?_ _).2 ?_
  · exact .trans _ _ _ (.rel _ _ (.order (.swap _ _ _)))
      (.trans _ _ _ (.rel _ _ (.rules (by simp) (.swap _ _ _)))
        (.trans _ _ _ (.rel _ _ (@Step.rule _ [] _ "b" _ _ .item)) (.rel _ _ (.other hetag))))
  · rw [ofJson, decode_of_spells h]
    rfl

end

end Snapshot

end Courier
