import Courier.Proofs.Exchange.Requests

/-!
# How a run ends

A run ends with its last request : the answer to it is in one of the cases of `Policy.Step`
that end a run, or it never comes (`ending_iff`). All answers before the last one have
renewed the event (`renewed_of_sent`), and as long as the bound allows it a further request
follows an answer that does (`sent_of_renewed`).

So the end of a run tells what happened to its requests. `Client.Reports` says it for each
end, and the run of a client keeps to that (`deliver_reports`).
-/

namespace Courier

namespace Policy

variable (p : Policy)

/-- The result of a submission whose request meets the exchange : the verdict on an outcome
that comes in time, else a cancellation. -/
inductive Result (x : Exchange) : Except SubmitError Delivery → Prop where
  | verdict {v : Except SubmitError Delivery} (h : p.InTime x) (hv : Verdict x.outcome v) :
    Result x v
  | cancelled (h : p.Late x) : Result x (.error .cancelled)

/-- The first `k` answers hold snapshots, and the matcher decides every rule of each for the
event of the request that was answered. -/
def Renewed (answers : List Exchange) (sent : List Event) (k : Nat) : Prop :=
  ∀ i < k, ∃ eᵢ x s, sent[i]? = some eᵢ ∧ answers[i]? = some x ∧ p.Receives x s ∧
    ∀ r ∈ s.rules.values, ∃ applies, p.matcher r eᵢ = .ok applies

/-! ## The last request -/

theorem exists_getElem?_cons_iff {α : Type} {a : α} {l : List α} {P : Nat → α → Prop} :
    (∃ i b, (a :: l)[i]? = some b ∧ P i b) ↔ P 0 a ∨ ∃ i b, l[i]? = some b ∧ P (i + 1) b := by
  constructor
  · rintro ⟨i, b, hi, h⟩
    cases i with
    | zero =>
      obtain rfl : a = b := by simpa using hi
      exact Or.inl h
    | succ i => exact Or.inr ⟨i, b, by simpa using hi, h⟩
  · rintro (h | ⟨i, b, hi, h⟩)
    · exact ⟨0, a, rfl, h⟩
    · exact ⟨i + 1, b, by simpa using hi, h⟩

/-- A run ends as its last request does : without an answer it waits, and the answer that
comes is one that ends a run. -/
theorem ending_iff :
    ∀ (attempt : Nat) (e : Event) (xs : List Exchange) (ε : Ending),
      (p.runFrom attempt e xs).ending = ε ↔
        ∃ i eᵢ, (p.runFrom attempt e xs).sent[i]? = some eᵢ ∧
          (xs[i]? = none ∧ ε = .waiting ∨
            ∃ x, xs[i]? = some x ∧ p.Step (attempt + i) eᵢ x (.ended ε))
  | attempt, e, [], ε => by
    rw [runFrom_nil, exists_getElem?_cons_iff]
    simp [eq_comm]
  | attempt, e, x :: xs, ε => by
    cases ha : p.advance attempt e x with
    | ended ending =>
      rw [runFrom_of_ended ha, exists_getElem?_cons_iff]
      simp [step_iff, ha]
    | submitting e₁ =>
      -- The first answer ends nothing, and the rest of the run is one from `e₁` on.
      have hfirst : ¬p.Step attempt e x (.ended ε) := by
        rw [step_iff, ha]
        simp
      have ih := ending_iff (attempt + 1) e₁ xs ε
      rw [runFrom_of_submitting ha, ih, exists_getElem?_cons_iff]
      simp only [List.getElem?_cons_zero, List.getElem?_cons_succ, reduceCtorEq, false_and,
        Option.some.injEq, exists_eq_left', Nat.add_zero, hfirst, or_self, false_or,
        Nat.add_right_comm attempt 1, Nat.add_assoc]

/-! ## The answers before the last -/

variable {p} {e : Event} {xs : List Exchange}

theorem receives_iff_result {x : Exchange} {s : Snapshot} :
    p.Receives x s ↔ p.Result x (.error (.rulesOutdated s)) := by
  rw [receives_iff]
  constructor
  · rintro ⟨hin, hj⟩
    exact .verdict hin (verdict_iff.2 hj)
  · intro h
    cases h with
    | verdict hin hv => exact ⟨hin, verdict_iff.1 hv⟩

/-- A further request has the bound's leave, and the answer before it renews the event. -/
theorem renews_of_sent {i : Nat} {e' : Event} (h : (p.deliver e xs).sent[i + 1]? = some e') :
    i + 1 < p.bound ∧ ∃ eᵢ x, (p.deliver e xs).sent[i]? = some eᵢ ∧ xs[i]? = some x ∧
      p.Renews eᵢ x e' := by
  rw [Nat.add_comm i 1]
  exact (p.sent_succ_iff 1 e xs i e').1 h

theorem exists_sent_of_lt {k i : Nat} {e' : Event} (h : (p.deliver e xs).sent[k]? = some e')
    (hi : i < k) : ∃ eᵢ, (p.deliver e xs).sent[i + 1]? = some eᵢ := by
  obtain ⟨hlt, -⟩ := List.getElem?_eq_some_iff.1 h
  exact ⟨_, List.getElem?_eq_getElem (by omega)⟩

/-- All answers before a request have renewed the event. -/
theorem renewed_of_sent {k : Nat} {e' : Event} (h : (p.deliver e xs).sent[k]? = some e') :
    p.Renewed xs (p.deliver e xs).sent k := by
  intro i hi
  obtain ⟨e₁, h₁⟩ := exists_sent_of_lt h hi
  obtain ⟨-, eᵢ, x, hs, hx, s, ids, hr, hsel, -⟩ := renews_of_sent h₁
  exact ⟨eᵢ, x, s, hs, hx, hr, hsel.decides⟩

theorem lt_bound_of_sent {k : Nat} {e' : Event} (h : (p.deliver e xs).sent[k]? = some e') :
    k < p.bound := by
  cases k with
  | zero => exact Nat.lt_of_lt_of_le Nat.one_pos (Nat.le_max_right _ _)
  | succ k => exact (renews_of_sent h).1

/-- As long as the bound allows it a request follows answers that renew the event. -/
theorem sent_of_renewed {k : Nat} (h : p.Renewed xs (p.deliver e xs).sent k) (hk : k < p.bound) :
    ∃ e', (p.deliver e xs).sent[k]? = some e' := by
  cases k with
  | zero => exact ⟨e, p.sent_zero 1 e xs⟩
  | succ k =>
    obtain ⟨eₖ, x, s, hs, hx, hr, hd⟩ := h k (Nat.lt_succ_self k)
    obtain ⟨ids, hsel⟩ := exists_selects hd
    refine ⟨_, (p.sent_succ_iff 1 e xs k _).2 ⟨by omega, eₖ, x, hs, hx, s, ids, hr, hsel, rfl⟩⟩

/-- An answer that ends the run is the one to the last request. -/
theorem length_of_ended {i : Nat} {eᵢ : Event} {x : Exchange} {ε : Ending}
    (h : (p.deliver e xs).sent[i]? = some eᵢ) (hx : xs[i]? = some x)
    (hs : p.Step (1 + i) eᵢ x (.ended ε)) : (p.deliver e xs).sent.length = i + 1 := by
  obtain ⟨hlt, -⟩ := List.getElem?_eq_some_iff.1 h
  refine Nat.le_antisymm (length_le_of_getElem?_eq_none fun e' h' => ?_) hlt
  obtain ⟨hb, e'', y, hi, hy, hr⟩ := renews_of_sent h'
  obtain rfl := Option.some.inj (h.symm.trans hi)
  obtain rfl := Option.some.inj (hx.symm.trans hy)
  have hgo : p.advance (1 + i) eᵢ x = .submitting e' := advance_of_renews hr (by omega)
  rw [step_iff.1 hs] at hgo
  cases hgo

/-! ## One end at a time -/

/-- An end other than waiting is that of the last request, and its answer is in the case of
that end. -/
theorem ended_iff {ε : Ending} (hε : ε ≠ .waiting) :
    (p.deliver e xs).ending = ε ↔ ∃ i eᵢ x, (p.deliver e xs).sent[i]? = some eᵢ ∧
      xs[i]? = some x ∧ p.Step (i + 1) eᵢ x (.ended ε) := by
  rw [deliver, ending_iff]
  constructor
  · rintro ⟨i, eᵢ, hi, ⟨-, rfl⟩ | ⟨x, hx, hs⟩⟩
    · exact absurd rfl hε
    · exact ⟨i, eᵢ, x, hi, hx, by rwa [Nat.add_comm]⟩
  · rintro ⟨i, eᵢ, x, hi, hx, hs⟩
    exact ⟨i, eᵢ, hi, Or.inr ⟨x, hx, by rwa [Nat.add_comm]⟩⟩

section Step

variable {attempt k n : Nat} {x : Exchange}

theorem step_delivered_iff {d : Delivery} {e' : Event} :
    p.Step attempt e x (.ended (.delivered d k e')) ↔
      k = attempt ∧ e' = e ∧ p.Result x (.ok d) := by
  constructor
  · intro h
    cases h with
    | delivered hin hd => exact ⟨rfl, rfl, .verdict hin (verdict_iff.2 hd)⟩
  · rintro ⟨rfl, rfl, h⟩
    cases h with
    | verdict hin hv => exact .delivered hin (verdict_iff.1 hv)

theorem step_submission_iff {f : SubmitError} :
    p.Step attempt e x (.ended (.failed (.submission k f))) ↔
      k = attempt ∧ p.Result x (.error f) ∧ ∀ s, f ≠ .rulesOutdated s := by
  constructor
  · intro h
    cases h with
    | cancelled hl => exact ⟨rfl, .cancelled hl, fun s hs => by cases hs⟩
    | failed hin hf hs => exact ⟨rfl, .verdict hin (verdict_iff.2 hf), hs⟩
  · rintro ⟨rfl, h, hs⟩
    cases h with
    | verdict hin hv => exact .failed hin (verdict_iff.1 hv) hs
    | cancelled hl => exact .cancelled hl

theorem step_matching_iff {f : MatchError} :
    p.Step attempt e x (.ended (.failed (.matching f))) ↔
      ∃ s, p.Receives x s ∧ s.matchingIds e p.matcher = .error f := by
  constructor
  · intro h
    cases h with
    | unmatched hr hf => exact ⟨_, hr, hf⟩
  · rintro ⟨s, hr, hf⟩
    exact .unmatched hr hf

theorem step_notConverged_iff {v : String} :
    p.Step attempt e x (.ended (.failed (.notConverged n v))) ↔
      n = p.bound ∧ p.bound ≤ attempt ∧
        ∃ s ids, p.Receives x s ∧ p.matcher.Selects e s ids ∧ v = s.version := by
  constructor
  · intro h
    cases h with
    | exhausted hr hi hb => exact ⟨rfl, hb, _, _, hr, hi, rfl⟩
  · rintro ⟨rfl, hb, s, ids, hr, hi, rfl⟩
    exact .exhausted hr hi hb

theorem step_waiting_iff :
    p.Step attempt e x (.ended .waiting) ↔ x.duration = none ∧ p.timeout = none := by
  constructor
  · intro h
    cases h with
    | waiting hx hp => exact ⟨hx, hp⟩
  · rintro ⟨hx, hp⟩
    exact .waiting hx hp

end Step

theorem delivered_iff {d : Delivery} {k : Nat} {e' : Event} :
    (p.deliver e xs).ending = .delivered d k e' ↔ ∃ i x, k = i + 1 ∧
      (p.deliver e xs).sent[i]? = some e' ∧ xs[i]? = some x ∧ p.Result x (.ok d) := by
  rw [ended_iff (by simp)]
  simp only [step_delivered_iff]
  constructor
  · rintro ⟨i, eᵢ, x, hi, hx, rfl, rfl, hr⟩
    exact ⟨i, x, rfl, hi, hx, hr⟩
  · rintro ⟨i, x, rfl, hi, hx, hr⟩
    exact ⟨i, e', x, hi, hx, rfl, rfl, hr⟩

theorem submission_iff {k : Nat} {f : SubmitError} :
    (p.deliver e xs).ending = .failed (.submission k f) ↔ ∃ i x, k = i + 1 ∧ i < p.bound ∧
      p.Renewed xs (p.deliver e xs).sent i ∧ xs[i]? = some x ∧ p.Result x (.error f) ∧
        ∀ s, f ≠ .rulesOutdated s := by
  rw [ended_iff (by simp)]
  simp only [step_submission_iff]
  constructor
  · rintro ⟨i, eᵢ, x, hi, hx, rfl, hr⟩
    exact ⟨i, x, rfl, lt_bound_of_sent hi, renewed_of_sent hi, hx, hr⟩
  · rintro ⟨i, x, rfl, hb, hren, hx, hr⟩
    obtain ⟨eᵢ, hi⟩ := sent_of_renewed hren hb
    exact ⟨i, eᵢ, x, hi, hx, rfl, hr⟩

theorem matching_iff {f : MatchError} :
    (p.deliver e xs).ending = .failed (.matching f) ↔
      ∃ (i : Nat) (eᵢ : Event) (x : Exchange) (s : Snapshot),
        (p.deliver e xs).sent[i]? = some eᵢ ∧ xs[i]? = some x ∧ p.Receives x s ∧
          s.matchingIds eᵢ p.matcher = .error f := by
  rw [ended_iff (by simp)]
  simp only [step_matching_iff]
  constructor
  · rintro ⟨i, eᵢ, x, hi, hx, s, h⟩
    exact ⟨i, eᵢ, x, s, hi, hx, h⟩
  · rintro ⟨i, eᵢ, x, s, hi, hx, h⟩
    exact ⟨i, eᵢ, x, hi, hx, s, h⟩

/-- The run gives up exactly if the answers to all requests allowed renew the event. -/
theorem notConverged_iff {n : Nat} {v : String} :
    (p.deliver e xs).ending = .failed (.notConverged n v) ↔ n = p.bound ∧
      p.Renewed xs (p.deliver e xs).sent p.bound ∧
        ∃ x s, xs[p.bound - 1]? = some x ∧ p.Receives x s ∧ v = s.version := by
  rw [ended_iff (by simp)]
  simp only [step_notConverged_iff]
  have hpos : 0 < p.bound := lt_bound_of_sent (p.sent_zero 1 e [])
  constructor
  · rintro ⟨i, eᵢ, x, hi, hx, rfl, hb, s, ids, hr, hsel, rfl⟩
    have hlt := lt_bound_of_sent hi
    obtain rfl : i = p.bound - 1 := by omega
    refine ⟨rfl, fun j hj => ?_, x, s, hx, hr, rfl⟩
    rcases Nat.lt_or_ge j (p.bound - 1) with hlt | hge
    · exact renewed_of_sent hi j hlt
    · obtain rfl : j = p.bound - 1 := by omega
      exact ⟨eᵢ, x, s, hi, hx, hr, hsel.decides⟩
  · rintro ⟨rfl, hren, x, s, hx, hr, rfl⟩
    obtain ⟨eᵢ, y, s', hi, hy, hr', hd⟩ := hren (p.bound - 1) (by omega)
    obtain rfl := Option.some.inj (hx.symm.trans hy)
    obtain rfl := hr.unique hr'
    obtain ⟨ids, hsel⟩ := exists_selects hd
    exact ⟨p.bound - 1, eᵢ, x, hi, hx, rfl, by omega, s, ids, hr, hsel, rfl⟩

theorem waiting_iff :
    (p.deliver e xs).ending = .waiting ↔
      ∃ (i : Nat) (eᵢ : Event), (p.deliver e xs).sent[i]? = some eᵢ ∧
        ∀ x, xs[i]? = some x → x.duration = none ∧ p.timeout = none := by
  rw [deliver, ending_iff]
  simp only [step_waiting_iff, and_true]
  refine exists_congr fun i => exists_congr fun eᵢ => and_congr_right fun _ => ?_
  cases xs[i]? <;> simp

end Policy

/-! ## What is reported -/

/-- What the end of a client's run says of its requests and the answers they met. -/
structure Client.Reports (c : Client) (p : Policy) (answers : List Exchange) (run : Run) :
    Prop where
  /-- Delivered after `k` attempts : just `k` requests, all answers but the last renewed the
  event, and the last one delivered it. -/
  delivered : ∀ d k, (∃ e, run.ending = .delivered d k e) ↔
    (c.requests run).length = k ∧ k ≤ max p.maxAttempts 1 ∧ p.Renewed answers run.sent (k - 1) ∧
      ∃ x, answers[k - 1]? = some x ∧ p.Result x (.ok d)
  /-- The event reported is the one that the last request carried. -/
  carried : ∀ d k e, run.ending = .delivered d k e →
    ∃ r, (c.requests run)[k - 1]? = some r ∧ r.body = e.toJson
  /-- Failed on attempt `k` : the answer to it is the first one that neither delivers the
  event nor holds a snapshot. -/
  failed : ∀ k f, run.ending = .failed (.submission k f) ↔
    0 < k ∧ k ≤ max p.maxAttempts 1 ∧ p.Renewed answers run.sent (k - 1) ∧
      (∃ x, answers[k - 1]? = some x ∧ p.Result x (.error f)) ∧ ∀ s, f ≠ .rulesOutdated s
  /-- The matcher failed on a rule of a snapshot, also of the last one allowed. -/
  unmatched : (∃ f, run.ending = .failed (.matching f)) ↔
    ∃ (i : Nat) (e : Event) (x : Exchange) (s : Snapshot), i < max p.maxAttempts 1 ∧
      run.sent[i]? = some e ∧ answers[i]? = some x ∧ p.Receives x s ∧
      ∃ r ∈ s.rules.values, ∃ reason, p.matcher r e = .error reason
  /-- The failure reported is one of the matcher, and names its rule. -/
  blamed : ∀ f, run.ending = .failed (.matching f) →
    ∃ (i : Nat) (e : Event) (x : Exchange) (s : Snapshot), run.sent[i]? = some e ∧
      answers[i]? = some x ∧ p.Receives x s ∧
      ∃ r ∈ s.rules.values, p.matcher r e = .error f.reason ∧ f.id = r.id ∧ f.name = r.name
  /-- Not converged : as many requests as allowed, all answers renewed the event, and the
  version is that of the last snapshot. -/
  exhausted : ∀ n v, run.ending = .failed (.notConverged n v) ↔
    n = max p.maxAttempts 1 ∧ (c.requests run).length = n ∧ p.Renewed answers run.sent n ∧
      ∃ x s, answers[n - 1]? = some x ∧ p.Receives x s ∧ v = s.version
  /-- There is no other end but to wait for an answer that never comes. -/
  waiting : run.ending = .waiting ↔ ∃ (i : Nat) (e : Event), run.sent[i]? = some e ∧
    ∀ x, answers[i]? = some x → x.duration = none ∧ p.timeout = none
  /-- The wording of a failure names the attempt, with the reasons of the submission behind
  it, or the version. -/
  worded : ∀ f, run.ending = .failed f →
    (∀ k g, f = .submission k g →
      f.message = "event submission failed on attempt " ++ toString k ∧
        f.reasons = g.message :: g.reasons) ∧
    ∀ n v, f = .notConverged n v →
      f.message = "RULES_NOT_CONVERGED: rules version still outdated after " ++ toString n
        ++ " attempt(s); last seen version " ++ Text.quote v

namespace Client

variable (c : Client) {p : Policy} {xs : List Exchange}

/-- A client that makes no requests meets a failure of the transport only. -/
theorem refusal?_eq_none_of_result {i : Nat} {x : Exchange} {v : Except SubmitError Delivery}
    (hx : (c.exchanges xs)[i]? = some x) (hr : p.Result x v)
    (hv : ∀ t, v ≠ .error (.transport t)) (hc : v ≠ .error .cancelled) : c.refusal? = none := by
  cases h : c.refusal? with
  | none => rfl
  | some t =>
    rw [exchanges, h, List.getElem?_singleton] at hx
    split at hx
    · obtain rfl := Option.some.inj hx
      cases hr with
      | verdict hin hj =>
        cases hj with
        | failed t => exact absurd rfl (hv t)
      | cancelled hl => exact absurd rfl hc
    · cases hx

/-- A client that makes requests makes one for each event of a run. -/
theorem length_requests (h : c.refusal? = none) (r : Run) :
    (c.requests r).length = r.sent.length := by
  have hbody := congrArg List.length (c.requests_body r)
  rwa [if_pos h, List.length_map, List.length_map] at hbody

/-- A run that is delivered by the answer to its `i + 1`-th request has made just that many. -/
theorem requests_of_delivered {e e' : Event} {d : Delivery} {k : Nat}
    (h : (c.deliver p e xs).ending = .delivered d k e') :
    ∃ i, k = i + 1 ∧ i < p.bound ∧ (c.requests (c.deliver p e xs)).length = k ∧
      p.Renewed (c.exchanges xs) (c.deliver p e xs).sent i ∧
      (∃ x, (c.exchanges xs)[i]? = some x ∧ p.Result x (.ok d)) ∧
      ∃ r, (c.requests (c.deliver p e xs))[i]? = some r ∧ r.body = e'.toJson := by
  obtain ⟨i, x, rfl, hi, hx, hr⟩ := Policy.delivered_iff.1 h
  have hc : c.refusal? = none := c.refusal?_eq_none_of_result hx hr (by simp) (by simp)
  have hstep : p.Step (1 + i) e' x (.ended (.delivered d (i + 1) e')) :=
    Policy.step_delivered_iff.2 ⟨Nat.add_comm i 1, rfl, hr⟩
  have hlen := Policy.length_of_ended hi hx hstep
  refine ⟨i, rfl, Policy.lt_bound_of_sent hi, ?_, Policy.renewed_of_sent hi, ⟨x, hx, hr⟩,
    c.requests_getElem?_iff.2 ⟨hc, e', hi, rfl⟩⟩
  rw [c.length_requests hc]
  exact hlen

/-- A run that does not converge has made all requests allowed. -/
theorem requests_of_renewed {e : Event} {x : Exchange} {s : Snapshot} {n : Nat}
    (hn : n = p.bound) (h : p.Renewed (c.exchanges xs) (c.deliver p e xs).sent n)
    (hx : (c.exchanges xs)[n - 1]? = some x) (hs : p.Receives x s) :
    (c.requests (c.deliver p e xs)).length = n := by
  have hc : c.refusal? = none :=
    c.refusal?_eq_none_of_result hx (Policy.receives_iff_result.1 hs) (by simp) (by simp)
  have hpos : 0 < p.bound := Nat.lt_of_lt_of_le Nat.one_pos (Nat.le_max_right _ _)
  obtain ⟨eₙ, -, -, hi, -⟩ := h (n - 1) (by omega)
  obtain ⟨hlt, -⟩ := List.getElem?_eq_some_iff.1 hi
  rw [c.length_requests hc]
  have hle : (c.deliver p e xs).sent.length ≤ n :=
    Policy.length_le_of_getElem?_eq_none fun e' h' => by
      have := Policy.lt_bound_of_sent h'
      omega
  omega

/-- The report of a client's run is true of the requests that were made and of the answers
to them. -/
theorem deliver_reports (p : Policy) (e : Event) (xs : List Exchange) :
    c.Reports p (c.exchanges xs) (c.deliver p e xs) where
  delivered d k := by
    constructor
    · rintro ⟨e', h⟩
      obtain ⟨i, rfl, hb, hlen, hren, hx, -⟩ := c.requests_of_delivered h
      exact ⟨hlen, hb, hren, hx⟩
    · rintro ⟨hlen, hb, hren, x, hx, hr⟩
      have hc : c.refusal? = none := c.refusal?_eq_none_of_result hx hr (by simp) (by simp)
      have hpos : 0 < k := by
        rw [← hlen, c.length_requests hc]
        exact (List.getElem?_eq_some_iff.1 (p.sent_zero 1 e (c.exchanges xs))).1
      have hlt : k - 1 < p.bound := Nat.lt_of_lt_of_le (by omega) hb
      obtain ⟨e', hi⟩ := Policy.sent_of_renewed hren hlt
      exact ⟨e', Policy.delivered_iff.2 ⟨k - 1, x, by omega, hi, hx, hr⟩⟩
  carried d k e' h := by
    obtain ⟨i, rfl, -, -, -, -, hr⟩ := c.requests_of_delivered h
    exact hr
  failed k f := by
    refine Policy.submission_iff.trans ⟨?_, ?_⟩
    · rintro ⟨i, x, rfl, hb, hren, hx, hr, hs⟩
      exact ⟨Nat.succ_pos i, hb, hren, ⟨x, hx, hr⟩, hs⟩
    · rintro ⟨hpos, hb, hren, ⟨x, hx, hr⟩, hs⟩
      exact ⟨k - 1, x, by omega, Nat.lt_of_lt_of_le (by omega) hb, hren, hx, hr, hs⟩
  unmatched := by
    constructor
    · rintro ⟨f, h⟩
      obtain ⟨i, eᵢ, x, s, hi, hx, hr, hf⟩ := Policy.matching_iff.1 h
      exact ⟨i, eᵢ, x, s, Policy.lt_bound_of_sent hi, hi, hx, hr,
        matchingAmong_error_iff.1 ⟨f, hf⟩⟩
    · rintro ⟨i, eᵢ, x, s, -, hi, hx, hr, hm⟩
      obtain ⟨f, hf⟩ := matchingAmong_error_iff.2 hm
      exact ⟨f, Policy.matching_iff.2 ⟨i, eᵢ, x, s, hi, hx, hr, hf⟩⟩
  blamed f h := by
    obtain ⟨i, eᵢ, x, s, hi, hx, hr, hf⟩ := Policy.matching_iff.1 h
    exact ⟨i, eᵢ, x, s, hi, hx, hr, of_matchingAmong_error s.rules.values ∅ hf⟩
  exhausted n v := by
    refine Policy.notConverged_iff.trans ⟨?_, ?_⟩
    · rintro ⟨rfl, hren, x, s, hx, hr, rfl⟩
      exact ⟨rfl, c.requests_of_renewed rfl hren hx hr, hren, x, s, hx, hr, rfl⟩
    · rintro ⟨rfl, -, hren, hx⟩
      exact ⟨rfl, hren, hx⟩
  waiting := Policy.waiting_iff
  worded f _ := by
    constructor
    · rintro k g rfl
      exact ⟨rfl, rfl⟩
    · rintro n v rfl
      rfl

end Client

end Courier
