import Courier.Exchange.Reconcile
import Courier.Proofs.Exchange.Signal
import Courier.Proofs.Exchange.Verdict
import Courier.Proofs.Rules.Selection

/-!
# What one exchange does to a run

`Policy.Step` lists what an exchange can do to a run : the request meets no answer, it is
given up, the event is delivered, the submission fails, the rules cannot be evaluated, the
event is renewed for another request, or it would be and the bound is reached. The cases
exclude each other and `Policy.advance` is in one of them (`advance_step`), so that a fact
about runs needs one case analysis and no look at the code.

`advance_eq_submitting_iff` is the case that goes on : the next event is the present one
with version and ids of the one snapshot that the exchange brought.
-/

namespace Courier.Policy

variable (p : Policy)

/-- The outcome comes, and before the time for a submission is over. -/
def InTime (x : Exchange) : Prop :=
  ∃ d, x.duration = some d ∧ ∀ time, p.timeout = some time → d < max time 1

/-- The time for a submission is over before the outcome comes. -/
def Late (x : Exchange) : Prop :=
  ∃ time, p.timeout = some time ∧ ∀ d, x.duration = some d → max time 1 ≤ d

/-- An answer 412 comes in time, and its body holds the snapshot. -/
def Receives (x : Exchange) (s : Snapshot) : Prop :=
  p.InTime x ∧ ∃ b, x.outcome = .answered ⟨412, b⟩ ∧ b.Holds s

/-- After a request with the event `e` that meets `x`, the next request carries `e'`. -/
def Renews (e : Event) (x : Exchange) (e' : Event) : Prop :=
  ∃ s ids, p.Receives x s ∧ p.matcher.Selects e s ids ∧
    e' = { e with rulesVersion := s.version, ruleIds := ids }

/-- What the exchange of the `attempt`-th request, which carried `e`, can do to a run. -/
inductive Step (attempt : Nat) (e : Event) (x : Exchange) : Progress → Prop where
  | waiting (hx : x.duration = none) (hp : p.timeout = none) :
    Step attempt e x (.ended .waiting)
  | cancelled (h : p.Late x) :
    Step attempt e x (.ended (.failed (.submission attempt .cancelled)))
  | delivered {d : Delivery} (h : p.InTime x) (hd : x.outcome.judge = .ok d) :
    Step attempt e x (.ended (.delivered d attempt e))
  | failed {f : SubmitError} (h : p.InTime x) (hf : x.outcome.judge = .error f)
    (hs : ∀ s, f ≠ .rulesOutdated s) : Step attempt e x (.ended (.failed (.submission attempt f)))
  | unmatched {s : Snapshot} {f : MatchError} (h : p.Receives x s)
    (hf : s.matchingIds e p.matcher = .error f) : Step attempt e x (.ended (.failed (.matching f)))
  | exhausted {s : Snapshot} {ids : KeySet} (h : p.Receives x s)
    (hi : p.matcher.Selects e s ids) (hb : p.bound ≤ attempt) :
    Step attempt e x (.ended (.failed (.notConverged p.bound s.version)))
  | renewed {e' : Event} (h : p.Renews e x e') (hb : attempt < p.bound) :
    Step attempt e x (.submitting e')

/-! ## Time -/

variable {p} {x : Exchange}

/-- The signal of the time for a submission leaves the outcome in time. -/
theorem inTime_iff : p.InTime x ↔ x.Completes (p.timeout.map Exchange.deadline) := by
  refine exists_congr fun d => and_congr_right fun _ => ?_
  simp only [Option.map_eq_some_iff, forall_exists_index, and_imp, forall_apply_eq_imp_iff₂]
  rfl

theorem late_iff : p.Late x ↔ x.Overtaken (p.timeout.map Exchange.deadline) := by
  simp only [Late, Exchange.Overtaken, Option.map_eq_some_iff, exists_exists_and_eq_and]
  rfl

theorem resultUntil_of_inTime (h : p.InTime x) :
    x.resultUntil (p.timeout.map Exchange.deadline) = some x.outcome.judge :=
  Exchange.resultUntil_of_completes (inTime_iff.1 h)

theorem resultUntil_of_late (h : p.Late x) :
    x.resultUntil (p.timeout.map Exchange.deadline) = some (.error .cancelled) :=
  Exchange.resultUntil_of_overtaken (late_iff.1 h)

/-- Without a bound on the time an outcome that never comes leaves the run waiting. -/
theorem resultUntil_of_never (hx : x.duration = none) (hp : p.timeout = none) :
    x.resultUntil (p.timeout.map Exchange.deadline) = none :=
  Exchange.resultUntil_of_never (by rw [hp, Option.map_none]) hx

theorem inTime_or_late (p : Policy) (x : Exchange) :
    p.InTime x ∨ p.Late x ∨ x.duration = none ∧ p.timeout = none := by
  rcases Exchange.overtaken_or_completes (p.timeout.map Exchange.deadline) x with h | h | ⟨hp, hx⟩
  · exact .inr (.inl (late_iff.2 h))
  · exact .inl (inTime_iff.2 h)
  · exact .inr (.inr ⟨hx, Option.map_eq_none_iff.1 hp⟩)

/-! ## One step -/

variable {attempt : Nat} {e : Event}

theorem receives_iff {s : Snapshot} :
    p.Receives x s ↔ p.InTime x ∧ x.outcome.judge = .error (.rulesOutdated s) :=
  and_congr Iff.rfl judge_eq_rulesOutdated_iff.symm

theorem receives_of_resultUntil {s : Snapshot}
    (h : x.resultUntil (p.timeout.map Exchange.deadline) = some (.error (.rulesOutdated s))) :
    p.Receives x s := by
  rcases inTime_or_late p x with hin | hlate | ⟨hx, hp⟩
  · rw [resultUntil_of_inTime hin] at h
    exact receives_iff.2 ⟨hin, Option.some.inj h⟩
  · rw [resultUntil_of_late hlate] at h
    cases h
  · rw [resultUntil_of_never hx hp] at h
    cases h

theorem Receives.unique {s s' : Snapshot} (h : p.Receives x s) (h' : p.Receives x s') :
    s = s' := by
  have heq := (receives_iff.1 h).2.symm.trans (receives_iff.1 h').2
  simpa using heq

theorem advanceIn_of_receives {v : Visit} {s : Snapshot} {e' : Event} (h : p.Receives x s)
    (hm : e.reconcileAmong s p.matcher (v.rules attempt s) = .ok e') :
    p.advanceIn v attempt e x =
      if attempt < p.bound then .submitting e'
      else .ended (.failed (.notConverged p.bound e'.rulesVersion)) := by
  obtain ⟨hin, hj⟩ := receives_iff.1 h
  simp only [advanceIn, resultUntil_of_inTime hin, hj, hm]

theorem advanceIn_of_unmatched {v : Visit} {s : Snapshot} {f : MatchError} (h : p.Receives x s)
    (hm : e.reconcileAmong s p.matcher (v.rules attempt s) = .error f) :
    p.advanceIn v attempt e x = .ended (.failed (.matching f)) := by
  obtain ⟨hin, hj⟩ := receives_iff.1 h
  simp only [advanceIn, resultUntil_of_inTime hin, hj, hm]

theorem advance_of_receives {s : Snapshot} {e' : Event} (h : p.Receives x s)
    (hm : e.reconcile s p.matcher = .ok e') : p.advance attempt e x =
      if attempt < p.bound then .submitting e'
      else .ended (.failed (.notConverged p.bound e'.rulesVersion)) :=
  advanceIn_of_receives h hm

theorem advance_of_unmatched {s : Snapshot} {f : MatchError} (h : p.Receives x s)
    (hm : e.reconcile s p.matcher = .error f) :
    p.advance attempt e x = .ended (.failed (.matching f)) :=
  advanceIn_of_unmatched h hm

theorem advance_of_delivers {d : Delivery} (h : p.InTime x) (hd : x.outcome.judge = .ok d) :
    p.advance attempt e x = .ended (.delivered d attempt e) := by
  simp only [advance, advanceIn, resultUntil_of_inTime h, hd]

/-- Every exchange does one of the listed things. -/
theorem advance_step (p : Policy) (attempt : Nat) (e : Event) (x : Exchange) :
    p.Step attempt e x (p.advance attempt e x) := by
  rcases inTime_or_late p x with hin | hlate | ⟨hx, hp⟩
  · cases hj : x.outcome.judge with
    | ok d =>
      rw [advance_of_delivers hin hj]
      exact .delivered hin hj
    | error f =>
      by_cases hs : ∃ s, f = .rulesOutdated s
      · obtain ⟨s, rfl⟩ := hs
        have hr : p.Receives x s := receives_iff.2 ⟨hin, hj⟩
        cases hm : e.reconcile s p.matcher with
        | error reason =>
          rw [advance_of_unmatched hr hm]
          exact .unmatched hr (reconcile_eq_error_iff.1 hm)
        | ok e' =>
          rw [advance_of_receives hr hm]
          obtain ⟨ids, hi, rfl⟩ := reconcile_eq_ok_iff.1 hm
          split
          · next hb => exact .renewed ⟨s, ids, hr, hi, rfl⟩ hb
          · next hb => exact .exhausted hr hi (Nat.not_lt.1 hb)
      · have hne : ∀ s, f ≠ .rulesOutdated s := fun s hf => hs ⟨s, hf⟩
        have ha : p.advance attempt e x = .ended (.failed (.submission attempt f)) := by
          simp only [advance, advanceIn, resultUntil_of_inTime hin, hj]
        rw [ha]
        exact .failed hin hj hne
  · have ha : p.advance attempt e x = .ended (.failed (.submission attempt .cancelled)) := by
      simp only [advance, advanceIn, resultUntil_of_late hlate]
    rw [ha]
    exact .cancelled hlate
  · have ha : p.advance attempt e x = .ended .waiting := by
      simp only [advance, advanceIn, resultUntil_of_never hx hp]
    rw [ha]
    exact .waiting hx hp

theorem advance_of_renews {e' : Event} (h : p.Renews e x e') (hb : attempt < p.bound) :
    p.advance attempt e x = .submitting e' := by
  obtain ⟨s, ids, hr, hi, rfl⟩ := h
  have hm : e.reconcile s p.matcher = .ok (e.withRules s.version ids) :=
    reconcile_eq_ok_iff.2 ⟨ids, hi, rfl⟩
  rw [advance_of_receives hr hm]
  exact if_pos hb

/-- No exchange does two of the listed things. -/
theorem Step.eq_advance {q : Progress} (h : p.Step attempt e x q) : p.advance attempt e x = q := by
  cases h with
  | waiting hx hp => simp only [advance, advanceIn, resultUntil_of_never hx hp]
  | cancelled h => simp only [advance, advanceIn, resultUntil_of_late h]
  | delivered h hd => exact advance_of_delivers h hd
  | failed h hf hs => simp only [advance, advanceIn, resultUntil_of_inTime h, hf]
  | unmatched h hf => exact advance_of_unmatched h (reconcile_eq_error_iff.2 hf)
  | @exhausted s ids h hi hb =>
    rw [advance_of_receives h (reconcile_eq_ok_iff.2 ⟨ids, hi, rfl⟩), if_neg (Nat.not_lt.2 hb)]
    rfl
  | renewed h hb => exact advance_of_renews h hb

theorem step_iff {q : Progress} : p.Step attempt e x q ↔ p.advance attempt e x = q :=
  ⟨Step.eq_advance, fun h => h ▸ advance_step p attempt e x⟩

/-- A run goes on exactly with a renewed event, and only below the bound. -/
theorem advance_eq_submitting_iff {e' : Event} :
    p.advance attempt e x = .submitting e' ↔ attempt < p.bound ∧ p.Renews e x e' := by
  constructor
  · intro h
    have hs := advance_step p attempt e x
    rw [h] at hs
    cases hs with
    | renewed hr hb => exact ⟨hb, hr⟩
  · rintro ⟨hb, hr⟩
    exact advance_of_renews hr hb

end Courier.Policy
