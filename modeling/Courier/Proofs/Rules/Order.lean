import Courier.Proofs.Rules.Selection
import Courier.Text.Quoted

/-!
# Rules in any order

Which ids a list of rules is evaluated to depends on its rules only, not on their order
(`matchingAmong_eq_ok_congr`), and so does whether the evaluation fails. So the rules of a snapshot
may be visited in any order (`matchingAmong_anyOrder`). Which rule a failure names may depend on it.
-/

namespace Courier

variable {m : Matcher} {e : Event} {rules : List Rule} {s : Snapshot}

/-- The rule has no filter, or one of nothing but blanks. -/
def Rule.Unfiltered (r : Rule) : Prop :=
  r.filterText = none ∨ ∃ text, r.filterText = some text ∧ ∀ c ∈ text.toList, Text.isBlank c = true

theorem Rule.objectFilter_eq_none_iff {r : Rule} : r.objectFilter = none ↔ r.Unfiltered := by
  cases h : r.filterText <;>
    simp [Rule.objectFilter, Rule.Unfiltered, h, Text.isBlankText]

theorem Matcher.unfiltered_eq_ok_iff {r : Rule} {applies : Bool} :
    Matcher.unfiltered r e = .ok applies ↔ (applies = true ↔ r.Unfiltered) := by
  rw [← Rule.objectFilter_eq_none_iff, Matcher.unfiltered, Except.ok.injEq]
  rw [← Option.isNone_iff_eq_none]
  cases applies <;> cases r.objectFilter.isNone <;> decide

/-- Lists with the same rules are evaluated to the same ids. -/
theorem matchingAmong_eq_ok_congr {rules' : List Rule} {ids : KeySet}
    (h : ∀ r, r ∈ rules ↔ r ∈ rules') :
    matchingAmong m e ∅ rules = .ok ids ↔ matchingAmong m e ∅ rules' = .ok ids := by
  simp only [matchingAmong_eq_ok_iff, h]

/-- The rules of a snapshot may be visited in any order. If the matcher decides them all, the ids
are those that the accepted rules carry, and the same in every order; if it fails on one, there are
no ids, and the failure names a rule on which it fails. The matcher without filters never fails,
and accepts the rules without a filter or with a blank one. -/
theorem matchingAmong_anyOrder (h : rules.Perm s.rules.values) :
    ((∀ r ∈ s.rules.values, ∃ applies, m r e = .ok applies) →
      ∃ ids, matchingAmong m e ∅ rules = .ok ids ∧ s.matchingIds e m = .ok ids ∧
        ∀ id, id ∈ ids ↔ ∃ r ∈ s.rules.values, m r e = .ok true ∧ r.id = id) ∧
    ((∃ r ∈ s.rules.values, ∃ reason, m r e = .error reason) →
      ∃ f, matchingAmong m e ∅ rules = .error f ∧ ∃ r ∈ s.rules.values,
        m r e = .error f.reason ∧
          f.message = "evaluating rule id=" ++ r.id ++ " name=" ++ Text.quote r.name) ∧
    ∃ ids, matchingAmong Matcher.unfiltered e ∅ rules = .ok ids ∧
      ∀ id, id ∈ ids ↔ ∃ r ∈ s.rules.values, r.Unfiltered ∧ r.id = id := by
  have hsame : ∀ (m : Matcher) ids, matchingAmong m e ∅ rules = .ok ids ↔ m.Selects e s ids :=
    fun m ids => (matchingAmong_eq_ok_congr fun _ => h.mem_iff).trans matchingIds_eq_ok_iff
  refine ⟨?decides, ?fails, ?unfiltered⟩
  case decides =>
    intro hdecides
    obtain ⟨ids, hsel⟩ := exists_selects hdecides
    exact ⟨ids, (hsame m ids).2 hsel, matchingIds_eq_ok_iff.2 hsel, hsel.mem_iff⟩
  case fails =>
    rintro ⟨r, hr, reason, hm⟩
    obtain ⟨f, hf⟩ := matchingAmong_error_iff.2 ⟨r, h.mem_iff.2 hr, reason, hm⟩
    obtain ⟨r', hr', hm', hid, hname⟩ := of_matchingAmong_error rules ∅ hf
    refine ⟨f, hf, r', h.mem_iff.1 hr', hm', ?_⟩
    rw [← hid, ← hname]
    rfl
  case unfiltered =>
    obtain ⟨ids, hsel⟩ := @exists_selects Matcher.unfiltered e s fun r _ =>
      ⟨r.objectFilter.isNone, rfl⟩
    refine ⟨ids, (hsame _ ids).2 hsel, fun id => ?_⟩
    simpa [Matcher.unfiltered_eq_ok_iff] using hsel.mem_iff id

/-- Three rules from last to first, two of which carry one id, under the matcher without filters and
under one that fails on a rule without a name. -/
theorem matchingAmong_anyOrder_reversed :
    let s : Snapshot := ⟨"v", Dict.ofList [("a", ⟨"1", "load", some "x"⟩), ("b", ⟨"1", "", none⟩),
      ("c", ⟨"2", "disk", some "\t"⟩)]⟩
    let e := Event.bare "n" .unknown
    let named : Matcher := fun r _ => if r.name = "" then .error "no name" else .ok true
    (∃ ids, matchingAmong Matcher.unfiltered e ∅ s.rules.values.reverse = .ok ids ∧
      s.matchingIds e Matcher.unfiltered = .ok ids ∧ "1" ∈ ids) ∧
    ∃ f, matchingAmong named e ∅ s.rules.values.reverse = .error f ∧
      f.message = "evaluating rule id=" ++ "1" ++ " name=" ++ Text.quote "" := by
  intro s e named
  have hperm : s.rules.values.reverse.Perm s.rules.values := List.reverse_perm _
  have hmem : ⟨"1", "", none⟩ ∈ s.rules.values := by decide
  have honly : ∀ r ∈ s.rules.values, r.name = "" → r = ⟨"1", "", none⟩ := by decide
  constructor
  · obtain ⟨ids, hids, hsame, hall⟩ :=
      (matchingAmong_anyOrder (m := Matcher.unfiltered) (e := e) hperm).1
        fun r _ => ⟨r.objectFilter.isNone, rfl⟩
    exact ⟨ids, hids, hsame, (hall "1").2 ⟨_, hmem, rfl, rfl⟩⟩
  · obtain ⟨f, hf, r, hr, hfails, hmessage⟩ :=
      (matchingAmong_anyOrder (m := named) (e := e) hperm).2.1 ⟨_, hmem, "no name", rfl⟩
    have hname : r.name = "" := by
      by_contra hne
      simp [named, hne] at hfails
    rw [honly r hr hname] at hmessage
    exact ⟨f, hf, hmessage⟩

end Courier
