import Courier.Proofs.Exchange.Endings
import Courier.Proofs.Rules.Order

/-!
# Runs in any order of visiting

The order in which a run visits the rules of a snapshot is open. It decides at most which rule a
failure of the matcher names : in every order a run sends the same events, and it ends the same way
unless it ends with such a failure in both (`deliverIn_eq_or`). A matcher that decides every rule
leaves the order no say at all (`deliverIn_of_decides`).

So runs by ascending key say all there is to say about runs : one in any order is one by ascending
key under a matcher that extends the first (`exists_deliver_eq`). That matcher refuses the rules on
which the first one fails, but for the one that the run in the other order ended on
(`Matcher.failingOn`).
-/

namespace Courier

/-! ## Matchers that decide more -/

namespace Matcher

/-- The matcher decides what `m` decides, and the same. It looks at the rule fields of an event only
if `m` does. -/
structure Extends (m' m : Matcher) : Prop where
  decides : ∀ {r e applies}, m r e = .ok applies → m' r e = .ok applies
  ignoresRules : m.IgnoresRules → m'.IgnoresRules

/-- The matcher that refuses the rules on which `m` fails, all but one. -/
def failingOn (m : Matcher) (r₀ : Rule) : Matcher := fun r e =>
  match m r e with
  | .ok applies => .ok applies
  | .error reason => if r = r₀ then .error reason else .ok false

variable {m : Matcher} {e : Event} {r₀ : Rule} {rules : List Rule} {reason : String}

theorem Extends.refl (m : Matcher) : m.Extends m :=
  ⟨id, id⟩

theorem extends_failingOn (m : Matcher) (r₀ : Rule) : (m.failingOn r₀).Extends m where
  decides h := by rw [failingOn, h]
  ignoresRules h r e version ids := by rw [failingOn, failingOn, h]

theorem failingOn_eq_error_iff {r : Rule} :
    m.failingOn r₀ r e = .error reason ↔ r = r₀ ∧ m r e = .error reason := by
  rw [failingOn]
  cases m r e with
  | ok applies => simp
  | error reason' => by_cases hr : r = r₀ <;> simp [hr]

/-- In any order of the rules a failure names the one that is left to fail. -/
theorem matchingAmong_failingOn (hr₀ : r₀ ∈ rules) (hm : m r₀ e = .error reason) :
    matchingAmong (m.failingOn r₀) e ∅ rules = .error ⟨r₀.id, r₀.name, reason⟩ := by
  obtain ⟨f, hf⟩ := matchingAmong_error_iff.2 ⟨r₀, hr₀, reason, failingOn_eq_error_iff.2 ⟨rfl, hm⟩⟩
  obtain ⟨r, -, hreason, hid, hname⟩ := of_matchingAmong_error rules ∅ hf
  obtain ⟨rfl, hm'⟩ := failingOn_eq_error_iff.1 hreason
  have heq : reason = f.reason := Except.error.inj (hm.symm.trans hm')
  rw [hf, ← hid, ← hname, heq]

end Matcher

/-! ## Rules of a snapshot in any order -/

section

variable {m m' : Matcher} {e e' : Event} {s : Snapshot} {rules : List Rule}

/-- What an event becomes does not depend on the order of the rules. -/
theorem reconcileAmong_eq_ok_iff_reconcile (h : rules.Perm s.rules.values) :
    e.reconcileAmong s m rules = .ok e' ↔ e.reconcile s m = .ok e' := by
  simp only [Event.reconcile, reconcileAmong_eq_ok_iff,
    matchingAmong_eq_ok_congr (m := m) (e := e) fun _ => h.mem_iff]

/-- Where a matcher renews an event, each that extends it does the same. -/
theorem Matcher.Extends.reconcile_eq_ok (hm : m'.Extends m) (h : e.reconcile s m = .ok e') :
    e.reconcile s m' = .ok e' := by
  obtain ⟨ids, hsel, rfl⟩ := reconcile_eq_ok_iff.1 h
  refine reconcile_eq_ok_iff.2 ⟨ids, ⟨fun r hr => ?_, fun id => ?_⟩, rfl⟩
  · obtain ⟨applies, ha⟩ := hsel.decides r hr
    exact ⟨applies, hm.decides ha⟩
  · refine (hsel.mem_iff id).trans (exists_congr fun r => and_congr_right fun hr => ?_)
    obtain ⟨applies, ha⟩ := hsel.decides r hr
    rw [ha, hm.decides ha]

/-- A failure in one order is the one by ascending key under a matcher that extends the first. -/
theorem exists_reconcile_eq_error {f : MatchError} (h : rules.Perm s.rules.values)
    (hf : e.reconcileAmong s m rules = .error f) :
    ∃ m' : Matcher, m'.Extends m ∧ e.reconcile s m' = .error f := by
  have hfails := reconcileAmong_eq_error_iff.1 hf
  obtain ⟨r, hr, hm, hid, hname⟩ := of_matchingAmong_error rules ∅ hfails
  refine ⟨m.failingOn r, m.extends_failingOn r, reconcile_eq_error_iff.2 ?_⟩
  rw [Snapshot.matchingIds, Matcher.matchingAmong_failingOn (h.mem_iff.1 hr) hm, ← hid, ← hname]

end

namespace Policy

/-- The policy with another matcher. -/
def withMatcher (p : Policy) (m : Matcher) : Policy :=
  { p with matcher := m }

variable {p : Policy} {v : Visit} {attempt : Nat} {e e' : Event} {x : Exchange} {xs : List Exchange}

/-! ## One step -/

/-- Without a snapshot there is nothing to visit, and nothing for the matcher to decide. -/
theorem advanceIn_of_not_receives (h : ∀ s, ¬p.Receives x s) (v v' : Visit) (m : Matcher) :
    (p.withMatcher m).advanceIn v attempt e x = p.advanceIn v' attempt e x := by
  cases hres : x.resultUntil (p.timeout.map Exchange.deadline) with
  | none => simp only [advanceIn, withMatcher, hres]
  | some r =>
    cases r with
    | ok d => simp only [advanceIn, withMatcher, hres]
    | error f =>
      cases f with
      | rulesOutdated s => exact absurd (receives_of_resultUntil hres) (h s)
      | _ => simp only [advanceIn, withMatcher, hres]

/-- The matcher is what fails exactly if the exchange brings a snapshot on whose rules, in the order
of the visit, it fails. -/
theorem advanceIn_eq_matching_iff {f : MatchError} :
    p.advanceIn v attempt e x = .ended (.failed (.matching f)) ↔
      ∃ s, p.Receives x s ∧ e.reconcileAmong s p.matcher (v.rules attempt s) = .error f := by
  refine ⟨fun h => ?_, fun ⟨s, hr, hf⟩ => advanceIn_of_unmatched hr hf⟩
  by_cases hr : ∃ s, p.Receives x s
  · obtain ⟨s, hr⟩ := hr
    refine ⟨s, hr, ?_⟩
    cases hrec : e.reconcileAmong s p.matcher (v.rules attempt s) with
    | error f' =>
      rw [advanceIn_of_unmatched hr hrec] at h
      cases h
      rfl
    | ok e₁ =>
      rw [advanceIn_of_receives hr hrec] at h
      split at h <;> cases h
  · rw [← advanceIn_of_not_receives (not_exists.1 hr) .ascending v p.matcher] at h
    obtain ⟨s, hs, -⟩ := step_matching_iff.1 (step_iff.2 h)
    exact absurd ⟨s, hs⟩ hr

/-- Unless the matcher fails, neither the order matters nor what the matcher says elsewhere. -/
theorem advance_eq_advanceIn {m : Matcher} (hm : m.Extends p.matcher)
    (h : ∀ f, p.advanceIn v attempt e x ≠ .ended (.failed (.matching f))) :
    (p.withMatcher m).advance attempt e x = p.advanceIn v attempt e x := by
  by_cases hr : ∃ s, p.Receives x s
  · obtain ⟨s, hr⟩ := hr
    cases hrec : e.reconcileAmong s p.matcher (v.rules attempt s) with
    | error f => exact absurd (advanceIn_of_unmatched hr hrec) (h f)
    | ok e₁ =>
      have hplain := (reconcileAmong_eq_ok_iff_reconcile (v.perm attempt s)).1 hrec
      rw [advanceIn_of_receives hr hrec]
      exact advance_of_receives (p := p.withMatcher m) hr (hm.reconcile_eq_ok hplain)
  · exact advanceIn_of_not_receives (not_exists.1 hr) _ v m

/-- What an exchange does in some order it does by ascending key, too, under a matcher that extends
the policy's. -/
theorem exists_advance_eq (p : Policy) (v : Visit) (attempt : Nat) (e : Event) (x : Exchange) :
    ∃ m : Matcher, m.Extends p.matcher ∧
      (p.withMatcher m).advance attempt e x = p.advanceIn v attempt e x := by
  by_cases h : ∃ f, p.advanceIn v attempt e x = .ended (.failed (.matching f))
  · obtain ⟨f, hfails⟩ := h
    obtain ⟨s, hr, hf⟩ := advanceIn_eq_matching_iff.1 hfails
    obtain ⟨m, hm, hplain⟩ := exists_reconcile_eq_error (v.perm attempt s) hf
    exact ⟨m, hm, (advance_of_unmatched (p := p.withMatcher m) hr hplain).trans hfails.symm⟩
  · exact ⟨p.matcher, .refl _, advance_eq_advanceIn (.refl _) (not_exists.1 h)⟩

/-- The order decides at most which rule a failure of the matcher names. -/
theorem advanceIn_eq_or (p : Policy) (v : Visit) (attempt : Nat) (e : Event) (x : Exchange) :
    p.advanceIn v attempt e x = p.advance attempt e x ∨
      ∃ f f', p.advanceIn v attempt e x = .ended (.failed (.matching f)) ∧
        p.advance attempt e x = .ended (.failed (.matching f')) := by
  by_cases h : ∃ f, p.advanceIn v attempt e x = .ended (.failed (.matching f))
  · obtain ⟨f, hfails⟩ := h
    obtain ⟨s, hr, hf⟩ := advanceIn_eq_matching_iff.1 hfails
    cases hplain : e.reconcile s p.matcher with
    | error f' => exact .inr ⟨f, f', hfails, advance_of_unmatched hr hplain⟩
    | ok e₁ =>
      have hok := (reconcileAmong_eq_ok_iff_reconcile (v.perm attempt s)).2 hplain
      cases hf.symm.trans hok
  · exact .inl (advance_eq_advanceIn (.refl p.matcher) (not_exists.1 h)).symm

/-! ## Runs -/

/-- A run in any order is one by ascending key, under a matcher that extends the policy's. -/
theorem exists_runFrom_eq (p : Policy) (v : Visit) :
    ∀ (attempt : Nat) (e : Event) (xs : List Exchange), ∃ m : Matcher, m.Extends p.matcher ∧
      (p.withMatcher m).runFrom attempt e xs = p.runIn v attempt e xs
  | _, _, [] => ⟨p.matcher, .refl _, rfl⟩
  | attempt, e, x :: xs => by
    cases ha : p.advanceIn v attempt e x with
    | ended ε =>
      obtain ⟨m, hm, h⟩ := p.exists_advance_eq v attempt e x
      exact ⟨m, hm, by rw [runFrom_of_ended (h.trans ha), runIn_of_ended ha]⟩
    | submitting e' =>
      -- Only the last step of a run can fail, so the matcher for the rest does for this step.
      obtain ⟨m, hm, h⟩ := exists_runFrom_eq p v (attempt + 1) e' xs
      have hstep : (p.withMatcher m).advance attempt e x = p.advanceIn v attempt e x :=
        advance_eq_advanceIn hm (by simp [ha])
      exact ⟨m, hm, by rw [runFrom_of_submitting (hstep.trans ha), runIn_of_submitting ha, h]⟩

/-- A delivery in any order of visiting is a delivery by ascending key under another matcher, which
decides all that the policy's decides, and the same. -/
theorem exists_deliver_eq (p : Policy) (v : Visit) (e : Event) (xs : List Exchange) :
    ∃ m : Matcher, m.Extends p.matcher ∧ (p.withMatcher m).deliver e xs = p.deliverIn v e xs :=
  p.exists_runFrom_eq v 1 e xs

theorem runIn_eq_or (p : Policy) (v : Visit) : ∀ (attempt : Nat) (e : Event) (xs : List Exchange),
    (p.runIn v attempt e xs).sent = (p.runFrom attempt e xs).sent ∧
      ((p.runIn v attempt e xs).ending = (p.runFrom attempt e xs).ending ∨
        ∃ f f', (p.runIn v attempt e xs).ending = .failed (.matching f) ∧
          (p.runFrom attempt e xs).ending = .failed (.matching f'))
  | _, _, [] => ⟨rfl, .inl rfl⟩
  | attempt, e, x :: xs => by
    rcases p.advanceIn_eq_or v attempt e x with h | ⟨f, f', hf, hf'⟩
    · cases ha : p.advance attempt e x with
      | ended ε =>
        rw [runIn_of_ended (h.trans ha), runFrom_of_ended ha]
        exact ⟨rfl, .inl rfl⟩
      | submitting e' =>
        obtain ⟨hsent, hending⟩ := runIn_eq_or p v (attempt + 1) e' xs
        rw [runIn_of_submitting (h.trans ha), runFrom_of_submitting ha]
        exact ⟨congrArg (e :: ·) hsent, hending⟩
    · rw [runIn_of_ended hf, runFrom_of_ended hf']
      exact ⟨rfl, .inr ⟨f, f', rfl, rfl⟩⟩

/-- In every order a delivery sends the same events. It ends the same way, unless it ends with a
failure of the matcher, and then it does so in every order. -/
theorem deliverIn_eq_or (p : Policy) (v : Visit) (e : Event) (xs : List Exchange) :
    (p.deliverIn v e xs).sent = (p.deliver e xs).sent ∧
      ((p.deliverIn v e xs).ending = (p.deliver e xs).ending ∨
        ∃ f f', (p.deliverIn v e xs).ending = .failed (.matching f) ∧
          (p.deliver e xs).ending = .failed (.matching f')) :=
  p.runIn_eq_or v 1 e xs

/-- Under a matcher that decides every rule, all orders make the same run. -/
theorem deliverIn_of_decides (h : ∀ r e, ∃ applies, p.matcher r e = .ok applies) (v : Visit)
    (e : Event) (xs : List Exchange) : p.deliverIn v e xs = p.deliver e xs := by
  obtain ⟨hsent, hending | ⟨-, f, -, hf⟩⟩ := p.deliverIn_eq_or v e xs
  · exact Run.ext hsent hending
  · obtain ⟨-, eᵢ, -, s, -, -, -, hfails⟩ := matching_iff.1 hf
    obtain ⟨r, -, hr, -⟩ := of_matchingAmong_error _ _ hfails
    obtain ⟨applies, ha⟩ := h r eᵢ
    cases hr.symm.trans ha

end Policy

end Courier
