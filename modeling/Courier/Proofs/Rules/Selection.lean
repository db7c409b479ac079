import Courier.Proofs.Dict
import Courier.Proofs.Steps
import Courier.Rules.Matcher

/-!
# What a matcher selects

`Matcher.Selects` says which ids belong to an event under a snapshot without saying in
which order the rules are looked at : the matcher decides every rule, and the ids are
those that the accepted rules carry. It holds of one set at most (`Selects.unique`), and
the evaluation succeeds with exactly that set (`matchingIds_eq_ok_iff`), since of any list of
rules it gives the ids of the accepted ones, or fails (`matchingAmong_eq_ok_iff`,
`matchingAmong_error_iff`).

An event that takes the rules of a snapshot changes in its two rule fields only
(`reconcile_eq_ok_iff`). A matcher that does not look at them (`Matcher.IgnoresRules`)
selects the same ids before and after.
-/

namespace Courier

variable {m : Matcher} {e : Event} {s : Snapshot} {ids : KeySet}

/-- The matcher decides every rule of the snapshot for the event, and the ids are those of
the rules it accepts. -/
structure Matcher.Selects (m : Matcher) (e : Event) (s : Snapshot) (ids : KeySet) : Prop where
  decides : ∀ r ∈ s.rules.values, ∃ applies, m r e = .ok applies
  mem_iff : ∀ id, id ∈ ids ↔ ∃ r ∈ s.rules.values, m r e = .ok true ∧ r.id = id

/-- The matcher does not look at the rule fields of an event. -/
def Matcher.IgnoresRules (m : Matcher) : Prop :=
  ∀ (r : Rule) (e : Event) (version : String) (ids : KeySet),
    m r (e.withRules version ids) = m r e

/-! ## Evaluating a list of rules -/

theorem matchingAmong_ok {m : Matcher} {e : Event} :
    ∀ (rules : List Rule) (ids : KeySet), (∀ r ∈ rules, ∃ applies, m r e = .ok applies) →
      ∃ out, matchingAmong m e ids rules = .ok out
  | [], ids, _ => ⟨ids, rfl⟩
  | r :: rest, ids, h => by
    obtain ⟨applies, hr⟩ := h r List.mem_cons_self
    have hrest : ∀ r' ∈ rest, ∃ applies, m r' e = .ok applies := fun r' hr' =>
      h r' (List.mem_cons_of_mem _ hr')
    rw [matchingAmong, hr]
    cases applies with
    | true => exact matchingAmong_ok rest _ hrest
    | false => exact matchingAmong_ok rest _ hrest

/-- What a successful evaluation says of the rules it went through. -/
theorem of_matchingAmong_ok {m : Matcher} {e : Event} {out : KeySet} :
    ∀ (rules : List Rule) (ids : KeySet), matchingAmong m e ids rules = .ok out →
      (∀ r ∈ rules, ∃ applies, m r e = .ok applies) ∧
        ∀ id, id ∈ out ↔ id ∈ ids ∨ ∃ r ∈ rules, m r e = .ok true ∧ r.id = id
  | [], ids, h => by
    obtain rfl : ids = out := Except.ok.inj h
    simp
  | r :: rest, ids, h => by
    rw [matchingAmong] at h
    cases hr : m r e with
    | error reason => simp [hr] at h
    | ok applies =>
      cases applies with
      | true =>
        obtain ⟨hd, hm⟩ := of_matchingAmong_ok rest (ids.insert r.id) (by simpa [hr] using h)
        refine ⟨List.forall_mem_cons.2 ⟨⟨true, hr⟩, hd⟩, fun id => ?_⟩
        rw [hm, KeySet.mem_insert, List.exists_mem_cons_iff, hr]
        simp only [true_and, eq_comm (a := id), or_assoc, or_left_comm]
      | false =>
        obtain ⟨hd, hm⟩ := of_matchingAmong_ok rest ids (by simpa [hr] using h)
        refine ⟨List.forall_mem_cons.2 ⟨⟨false, hr⟩, hd⟩, fun id => ?_⟩
        rw [hm, List.exists_mem_cons_iff, hr]
        simp

/-- A failed evaluation names a rule on which the matcher fails. -/
theorem of_matchingAmong_error {m : Matcher} {e : Event} {failure : MatchError} :
    ∀ (rules : List Rule) (ids : KeySet), matchingAmong m e ids rules = .error failure →
      ∃ r ∈ rules, m r e = .error failure.reason ∧ failure.id = r.id ∧ failure.name = r.name
  | [], _, h => nomatch h
  | r :: rest, ids, h => by
    rw [matchingAmong] at h
    cases hr : m r e with
    | error reason =>
      obtain rfl : ⟨r.id, r.name, reason⟩ = failure := by simpa [hr] using h
      exact ⟨r, List.mem_cons_self, hr, rfl, rfl⟩
    | ok applies =>
      have hrest : ∃ ids', matchingAmong m e ids' rest = .error failure := by
        cases applies with
        | true => exact ⟨_, by simpa [hr] using h⟩
        | false => exact ⟨_, by simpa [hr] using h⟩
      obtain ⟨ids', h'⟩ := hrest
      obtain ⟨r', hmem, hr'⟩ := of_matchingAmong_error rest ids' h'
      exact ⟨r', List.mem_cons_of_mem _ hmem, hr'⟩

/-- The evaluation of a list of rules succeeds if the matcher decides them all, with the ids of
those that it accepts. -/
theorem matchingAmong_eq_ok_iff {rules : List Rule} : matchingAmong m e ∅ rules = .ok ids ↔
    (∀ r ∈ rules, ∃ applies, m r e = .ok applies) ∧
      ∀ id, id ∈ ids ↔ ∃ r ∈ rules, m r e = .ok true ∧ r.id = id := by
  have hsound : ∀ {ids}, matchingAmong m e ∅ rules = .ok ids →
      (∀ r ∈ rules, ∃ applies, m r e = .ok applies) ∧
        ∀ id, id ∈ ids ↔ ∃ r ∈ rules, m r e = .ok true ∧ r.id = id := by
    intro ids h
    simpa only [KeySet.not_mem_empty, false_or] using of_matchingAmong_ok rules ∅ h
  refine ⟨hsound, fun ⟨hdecides, hmem⟩ => ?_⟩
  obtain ⟨out, hout⟩ := matchingAmong_ok rules ∅ hdecides
  have heq : out = ids := KeySet.ext_mem fun id => ((hsound hout).2 id).trans (hmem id).symm
  rw [hout, heq]

/-- It fails exactly if the matcher fails on a rule. -/
theorem matchingAmong_error_iff {rules : List Rule} :
    (∃ f, matchingAmong m e ∅ rules = .error f) ↔
      ∃ r ∈ rules, ∃ reason, m r e = .error reason := by
  constructor
  · rintro ⟨f, hf⟩
    obtain ⟨r, hr, hm, -⟩ := of_matchingAmong_error rules ∅ hf
    exact ⟨r, hr, f.reason, hm⟩
  · rintro ⟨r, hr, reason, hm⟩
    cases hrun : matchingAmong m e ∅ rules with
    | error f => exact ⟨f, rfl⟩
    | ok ids =>
      obtain ⟨applies, ha⟩ := (matchingAmong_eq_ok_iff.1 hrun).1 r hr
      rw [hm] at ha
      cases ha

/-! ## Selecting -/

theorem Matcher.Selects.unique {ids' : KeySet} (h : m.Selects e s ids)
    (h' : m.Selects e s ids') : ids = ids' :=
  KeySet.ext_mem fun id => (h.mem_iff id).trans (h'.mem_iff id).symm

theorem matchingIds_eq_ok_iff : s.matchingIds e m = .ok ids ↔ m.Selects e s ids :=
  matchingAmong_eq_ok_iff.trans ⟨fun h => ⟨h.1, h.2⟩, fun h => ⟨h.decides, h.mem_iff⟩⟩

/-- Of a snapshot whose every rule the matcher decides, it selects some set. -/
theorem exists_selects (h : ∀ r ∈ s.rules.values, ∃ applies, m r e = .ok applies) :
    ∃ ids, m.Selects e s ids := by
  obtain ⟨out, ho⟩ := matchingAmong_ok s.rules.values ∅ h
  exact ⟨out, matchingIds_eq_ok_iff.1 ho⟩

/-! ## Taking the rules of a snapshot -/

theorem withRules_withRules (e : Event) (v v' : String) (ids ids' : KeySet) :
    (e.withRules v ids).withRules v' ids' = e.withRules v' ids' :=
  rfl

theorem withRules_self (e : Event) : e.withRules e.rulesVersion e.ruleIds = e :=
  rfl

theorem reconcileAmong_eq_ok_iff {rules : List Rule} {e' : Event} :
    e.reconcileAmong s m rules = .ok e' ↔
      ∃ ids, matchingAmong m e ∅ rules = .ok ids ∧ e.withRules s.version ids = e' :=
  map_eq_ok_iff

theorem reconcileAmong_eq_error_iff {rules : List Rule} {f : MatchError} :
    e.reconcileAmong s m rules = .error f ↔ matchingAmong m e ∅ rules = .error f :=
  map_eq_error_iff

theorem reconcile_eq_ok_iff {e' : Event} : e.reconcile s m = .ok e' ↔
    ∃ ids, m.Selects e s ids ∧ e' = e.withRules s.version ids :=
  reconcileAmong_eq_ok_iff.trans
    (exists_congr fun _ => and_congr matchingIds_eq_ok_iff eq_comm)

theorem reconcile_eq_error_iff {f : MatchError} :
    e.reconcile s m = .error f ↔ s.matchingIds e m = .error f :=
  reconcileAmong_eq_error_iff

theorem Matcher.IgnoresRules.selects_iff (hm : m.IgnoresRules) (v : String) (ids ids' : KeySet) :
    m.Selects (e.withRules v ids) s ids' ↔ m.Selects e s ids' := by
  constructor
  · rintro ⟨hd, hi⟩
    simp only [hm _ e] at hd hi
    exact ⟨hd, hi⟩
  · rintro ⟨hd, hi⟩
    refine ⟨?_, ?_⟩ <;> simpa only [hm _ e]

end Courier
