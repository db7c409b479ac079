import Courier.Exchange.Client
import Courier.Proofs.Exchange.Step

/-!
# What a run sends

`Policy.Follows` says which events the requests of a run carry, given the answers they
meet : the first carries the initial event, and each further one the event before it with
version and ids of the one snapshot in the answer between them. The run of a client keeps
to that (`deliver_follows`), and the bodies of its requests are the texts of these events
(`requests_body`).
-/

namespace Courier

/-! ## The events of a run -/

namespace Policy

section

variable {p : Policy} {attempt : Nat} {e e' : Event} {x : Exchange} {xs : List Exchange}

theorem runIn_of_ended {v : Visit} {ε : Ending} (h : p.advanceIn v attempt e x = .ended ε) :
    p.runIn v attempt e (x :: xs) = ⟨[e], ε⟩ := by
  rw [runIn, h]

theorem runIn_of_submitting {v : Visit} (h : p.advanceIn v attempt e x = .submitting e') :
    p.runIn v attempt e (x :: xs) =
      ⟨e :: (p.runIn v (attempt + 1) e' xs).sent, (p.runIn v (attempt + 1) e' xs).ending⟩ := by
  rw [runIn, h]

theorem runFrom_nil : p.runFrom attempt e [] = ⟨[e], .waiting⟩ :=
  rfl

theorem runFrom_cons : p.runFrom attempt e (x :: xs) =
    match p.advance attempt e x with
    | .ended ending => ⟨[e], ending⟩
    | .submitting e' =>
      ⟨e :: (p.runFrom (attempt + 1) e' xs).sent, (p.runFrom (attempt + 1) e' xs).ending⟩ :=
  rfl

theorem runFrom_of_ended {ε : Ending} (h : p.advance attempt e x = .ended ε) :
    p.runFrom attempt e (x :: xs) = ⟨[e], ε⟩ :=
  runIn_of_ended h

theorem runFrom_of_submitting (h : p.advance attempt e x = .submitting e') :
    p.runFrom attempt e (x :: xs) =
      ⟨e :: (p.runFrom (attempt + 1) e' xs).sent, (p.runFrom (attempt + 1) e' xs).ending⟩ :=
  runIn_of_submitting h

end

variable (p : Policy)

/-- The first request of a run carries the event that the run is for. -/
theorem sent_eq_cons (attempt : Nat) (e : Event) (xs : List Exchange) :
    ∃ rest, (p.runFrom attempt e xs).sent = e :: rest := by
  cases xs with
  | nil => exact ⟨[], rfl⟩
  | cons x xs =>
    rw [runFrom_cons]
    split
    · exact ⟨[], rfl⟩
    · exact ⟨_, rfl⟩

theorem sent_zero (attempt : Nat) (e : Event) (xs : List Exchange) :
    (p.runFrom attempt e xs).sent[0]? = some e := by
  obtain ⟨rest, h⟩ := p.sent_eq_cons attempt e xs
  rw [h, List.getElem?_cons_zero]

/-- A request follows the `i`-th exactly if the bound allows it and the answer between
them renews the event. -/
theorem sent_succ_iff :
    ∀ (attempt : Nat) (e : Event) (xs : List Exchange) (i : Nat) (e' : Event),
      (p.runFrom attempt e xs).sent[i + 1]? = some e' ↔ attempt + i < p.bound ∧
        ∃ eᵢ x, (p.runFrom attempt e xs).sent[i]? = some eᵢ ∧ xs[i]? = some x ∧ p.Renews eᵢ x e'
  | attempt, e, [], i, e' => by simp [runFrom_nil]
  | attempt, e, x :: xs, i, e' => by
    cases ha : p.advance attempt e x with
    | ended ending =>
      -- The run is over : a renewal below the bound would contradict `ha`.
      simp only [runFrom_of_ended ha, List.getElem?_cons_succ, List.getElem?_nil, reduceCtorEq,
        false_iff]
      rintro ⟨hb, eᵢ, y, he, hy, hr⟩
      cases i with
      | zero =>
        obtain rfl : e = eᵢ := by simpa using he
        obtain rfl : x = y := by simpa using hy
        have hs : p.advance attempt e x = .submitting e' := advance_of_renews hr hb
        rw [ha] at hs
        cases hs
      | succ i => simp at he
    | submitting e₁ =>
      obtain ⟨hb, hr⟩ := advance_eq_submitting_iff.1 ha
      rw [runFrom_of_submitting ha]
      cases i with
      | zero =>
        simp only [List.getElem?_cons_succ, sent_zero, List.getElem?_cons_zero, Option.some.injEq,
          exists_eq_left', exists_and_left, Nat.add_zero]
        constructor
        · rintro rfl
          exact ⟨hb, hr⟩
        · rintro ⟨-, hr'⟩
          have heq := ha.symm.trans (advance_of_renews hr' hb)
          exact Progress.submitting.inj heq
      | succ i =>
        have ih := sent_succ_iff (attempt + 1) e₁ xs i e'
        simp only [List.getElem?_cons_succ]
        rw [ih, show attempt + (i + 1) = attempt + 1 + i by omega]

/-- A run that waits for a further answer goes on from its last event as a run from there. -/
theorem runFrom_append :
    ∀ (attempt : Nat) (e : Event) (xs ys : List Exchange) (e' : Event),
      (p.runFrom attempt e xs).sent[xs.length]? = some e' →
        (p.runFrom attempt e (xs ++ ys)).ending =
            (p.runFrom (attempt + xs.length) e' ys).ending ∧
          ∀ i, (p.runFrom attempt e (xs ++ ys)).sent[xs.length + i]? =
            (p.runFrom (attempt + xs.length) e' ys).sent[i]?
  | attempt, e, [], ys, e', h => by
    rw [List.length_nil, sent_zero] at h
    obtain rfl := Option.some.inj h
    simp
  | attempt, e, x :: xs, ys, e', h => by
    cases ha : p.advance attempt e x with
    | ended ending => simp [runFrom_of_ended ha] at h
    | submitting e₁ =>
      rw [runFrom_of_submitting ha, List.length_cons, List.getElem?_cons_succ] at h
      rw [List.cons_append, runFrom_of_submitting ha]
      obtain ⟨hending, hsent⟩ := runFrom_append (attempt + 1) e₁ xs ys e' h
      rw [List.length_cons, show attempt + (xs.length + 1) = attempt + 1 + xs.length by omega]
      refine ⟨hending, fun i => ?_⟩
      rw [show xs.length + 1 + i = xs.length + i + 1 by omega, List.getElem?_cons_succ]
      exact hsent i

end Policy

/-- A further request is made exactly if the bound allows it and the answer before it
renews the event, and it carries the renewed event. -/
def Policy.Chained (p : Policy) (answers : List Exchange) (sent : List Event) : Prop :=
  ∀ i e', sent[i + 1]? = some e' ↔ i + 1 < max p.maxAttempts 1 ∧
    ∃ eᵢ x, sent[i]? = some eᵢ ∧ answers[i]? = some x ∧ p.Renews eᵢ x e'

/-- What the events `sent` of the requests of a run have to do with the initial event `e`
and the answers that the requests meet. -/
structure Policy.Follows (p : Policy) (e : Event) (answers : List Exchange) (sent : List Event) :
    Prop where
  first : sent[0]? = some e
  chained : p.Chained answers sent
  /-- All but the two rule fields stays. -/
  kept : ∀ e' ∈ sent, e' = { e with rulesVersion := e'.rulesVersion, ruleIds := e'.ruleIds }
  /-- For a matcher that does not look at the rule fields, a further request depends on the
  initial event and on the latest answer only. -/
  latest : p.matcher.IgnoresRules → ∀ i e', sent[i + 1]? = some e' →
    ∃ x, answers[i]? = some x ∧ p.Renews e x e'
  /-- No request after an answer without snapshot. -/
  stops : ∀ i x, answers[i]? = some x → (∀ s, ¬p.Receives x s) → sent.length ≤ i + 1
  /-- No request after a failure of the matcher. -/
  fails : ∀ i eᵢ x s r reason, sent[i]? = some eᵢ → answers[i]? = some x → p.Receives x s →
    r ∈ s.rules.values → p.matcher r eᵢ = .error reason → sent.length ≤ i + 1
  bounded : sent.length ≤ max p.maxAttempts 1

namespace Policy

variable {p : Policy} {e : Event} {answers : List Exchange} {sent : List Event}

theorem length_le_of_getElem?_eq_none {i : Nat} (h : ∀ e', sent[i]? ≠ some e') :
    sent.length ≤ i := by
  cases hs : sent[i]? with
  | none => exact List.getElem?_eq_none_iff.1 hs
  | some e' => exact absurd hs (h e')

/-- Of each event sent all but the rule fields is the initial event's. -/
theorem Chained.kept (hc : p.Chained answers sent) (h₀ : sent[0]? = some e) :
    ∀ {i : Nat} {e' : Event}, sent[i]? = some e' →
      e' = { e with rulesVersion := e'.rulesVersion, ruleIds := e'.ruleIds }
  | 0, e', h => by
    obtain rfl : e = e' := Option.some.inj (h₀.symm.trans h)
    rfl
  | i + 1, e', h => by
    obtain ⟨-, eᵢ, x, hi, -, s, ids, -, -, rfl⟩ := (hc i e').1 h
    rw [hc.kept h₀ hi]

/-- The other properties of a run follow from its first event and from how each further
one comes about. -/
theorem Chained.follows (hc : p.Chained answers sent) (h₀ : sent[0]? = some e) :
    p.Follows e answers sent := by
  refine ⟨h₀, hc, fun e' he' => ?_, fun hm i e' h => ?_, fun i x hx hs => ?_,
    fun i eᵢ x s r reason hi hx hs hr hf => ?_, ?_⟩
  · obtain ⟨i, hi⟩ := List.mem_iff_getElem?.1 he'
    exact hc.kept h₀ hi
  · obtain ⟨-, eᵢ, x, hi, hx, s, ids, hr, hsel, he'⟩ := (hc i e').1 h
    rw [hc.kept h₀ hi] at hsel he'
    exact ⟨x, hx, s, ids, hr, (hm.selects_iff _ _ ids).1 hsel, he'⟩
  · refine length_le_of_getElem?_eq_none fun e' h => ?_
    obtain ⟨-, eᵢ, y, -, hy, s, ids, hr, -⟩ := (hc i e').1 h
    obtain rfl := Option.some.inj (hx.symm.trans hy)
    exact hs s hr
  · refine length_le_of_getElem?_eq_none fun e' h => ?_
    obtain ⟨-, e'', y, hi', hy, s', ids, hs', hsel, -⟩ := (hc i e').1 h
    obtain rfl := Option.some.inj (hi.symm.trans hi')
    obtain rfl := Option.some.inj (hx.symm.trans hy)
    obtain rfl := hs.unique hs'
    obtain ⟨applies, ha⟩ := hsel.decides r hr
    rw [hf] at ha
    cases ha
  · refine length_le_of_getElem?_eq_none fun e' h => ?_
    obtain ⟨k, hk⟩ : ∃ k, max p.maxAttempts 1 = k + 1 := ⟨max p.maxAttempts 1 - 1, by omega⟩
    rw [hk] at h
    have := ((hc k e').1 h).1
    omega

theorem runFrom_follows (p : Policy) (e : Event) (xs : List Exchange) :
    p.Follows e xs (p.deliver e xs).sent := by
  refine Chained.follows (fun i e' => ?_) (sent_zero p 1 e xs)
  have h := sent_succ_iff p 1 e xs i e'
  rw [Nat.add_comm 1 i] at h
  exact h

end Policy

/-! ## The requests of a run -/

namespace Client

variable (c : Client)

/-- The request of a client that can make requests, and what it sends. -/
theorem request?_eq_some (h : c.refusal? = none) (e : Event) :
    ∃ r, c.request? e = some r ∧ r.body = e.toJson := by
  have hagent : Credentials.isHeaderValue c.credentials.userAgent = true := by
    unfold refusal? at h
    split at h
    · cases h
    · next ha => simpa using ha
  rw [request?, h]
  dsimp only
  rw [Credentials.sign?, if_pos hagent]
  exact ⟨_, rfl, rfl⟩

theorem request?_eq_none (h : c.refusal? ≠ none) (e : Event) : c.request? e = none := by
  rw [request?]
  split
  · rfl
  · next hn => exact absurd hn h

/-- A client that refuses makes no request; every other one makes one for each event of the
run, with its text as the body. -/
theorem requests_body (r : Run) : (c.requests r).map (·.body) =
    if c.refusal? = none then r.sent.map Event.toJson else [] := by
  unfold requests
  split
  · next h =>
    induction r.sent with
    | nil => rfl
    | cons e rest ih =>
      obtain ⟨req, hreq, hbody⟩ := c.request?_eq_some h e
      rw [List.filterMap_cons_some hreq, List.map_cons, List.map_cons, ih, hbody]
  · next h =>
    rw [List.filterMap_eq_nil_iff.2 fun e _ => c.request?_eq_none h e, List.map_nil]

/-- The requests of a client that can make requests are those for the events of the run. -/
theorem requests_getElem?_iff {r : Run} {i : Nat} {body : String} :
    (∃ req, (c.requests r)[i]? = some req ∧ req.body = body) ↔
      c.refusal? = none ∧ ∃ e, r.sent[i]? = some e ∧ e.toJson = body := by
  rw [← Option.map_eq_some_iff, ← List.getElem?_map, c.requests_body]
  split
  · next h => rw [List.getElem?_map, Option.map_eq_some_iff, and_iff_right h]
  · next h => simp [h]

/-- The requests of a client's run carry the texts of the events of the run, and these
follow from the initial event and the answers. -/
theorem deliver_follows (p : Policy) (e : Event) (xs : List Exchange) :
    (c.requests (c.deliver p e xs)).map (·.body) =
        (if c.refusal? = none then (c.deliver p e xs).sent.map Event.toJson else []) ∧
      p.Follows e (c.exchanges xs) (c.deliver p e xs).sent :=
  ⟨c.requests_body _, p.runFrom_follows e (c.exchanges xs)⟩

end Client

end Courier
