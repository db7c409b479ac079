import Courier.Proofs.Exchange.Convergence
import Courier.Proofs.Exchange.Endings

/-!
# Runs under a larger bound

The bound on submissions counts only where it is reached. Under a larger bound an exchange does
the same to a run, unless the run has made all submissions allowed (`advance_raised`). So the run
is the same, or it ends for want of a further submission, and then the run under the larger bound
begins with it (`runFrom_raised`, `deliver_raised`).
-/

namespace Courier

/-- The end of a run that has made all submissions allowed. -/
def Ending.Exhausted (ε : Ending) : Prop :=
  ∃ n v, ε = .failed (.notConverged n v)

namespace Policy

/-- The policy with another bound on submissions. -/
def withMaxAttempts (p : Policy) (n : Nat) : Policy :=
  { p with maxAttempts := n }

variable {p : Policy} {m attempt : Nat} {e e' : Event} {x : Exchange} {xs : List Exchange}

theorem bound_le_of_le (h : p.maxAttempts ≤ m) : p.bound ≤ (p.withMaxAttempts m).bound := by
  show max p.maxAttempts 1 ≤ max m 1
  omega

/-- Under a larger bound an exchange does the same to a run, unless the run is at its bound. -/
theorem advance_raised (h : p.maxAttempts ≤ m) (attempt : Nat) (e : Event) (x : Exchange) :
    (p.withMaxAttempts m).advance attempt e x = p.advance attempt e x ∨
      ∃ ε, ε.Exhausted ∧ p.advance attempt e x = .ended ε := by
  have hstep := advance_step p attempt e x
  generalize p.advance attempt e x = q at hstep ⊢
  cases hstep with
  | waiting hx hp => exact .inl (step_iff.1 (.waiting hx hp))
  | cancelled hl => exact .inl (step_iff.1 (.cancelled hl))
  | delivered hin hd => exact .inl (step_iff.1 (.delivered hin hd))
  | failed hin hf hs => exact .inl (step_iff.1 (.failed hin hf hs))
  | unmatched hr hf => exact .inl (step_iff.1 (.unmatched hr hf))
  | exhausted => exact .inr ⟨_, ⟨_, _, rfl⟩, rfl⟩
  | renewed hr hb =>
    exact .inl (step_iff.1 (.renewed hr (Nat.lt_of_lt_of_le hb (bound_le_of_le h))))

/-- A run is the same under a larger bound, or it ends at its bound and the run under the larger
one begins with it. -/
theorem runFrom_raised (h : p.maxAttempts ≤ m) :
    ∀ (attempt : Nat) (e : Event) (xs : List Exchange),
      (p.withMaxAttempts m).runFrom attempt e xs = p.runFrom attempt e xs ∨
        (p.runFrom attempt e xs).ending.Exhausted ∧
          (p.runFrom attempt e xs).sent <+: ((p.withMaxAttempts m).runFrom attempt e xs).sent
  | attempt, e, [] => .inl rfl
  | attempt, e, x :: xs => by
    rcases advance_raised h attempt e x with hsame | ⟨ε, hε, hended⟩
    · cases ha : p.advance attempt e x with
      | ended ε => exact .inl (by rw [runFrom_of_ended ha, runFrom_of_ended (hsame.trans ha)])
      | submitting e' =>
        rw [runFrom_of_submitting ha, runFrom_of_submitting (hsame.trans ha)]
        rcases runFrom_raised h (attempt + 1) e' xs with hrest | ⟨hend, hsent⟩
        · exact .inl (by rw [hrest])
        · exact .inr ⟨hend, List.cons_prefix_cons.2 ⟨rfl, hsent⟩⟩
    · -- The last request carries `e` under any bound.
      obtain ⟨rest, hrest⟩ := (p.withMaxAttempts m).sent_eq_cons attempt e (x :: xs)
      rw [runFrom_of_ended hended, hrest]
      exact .inr ⟨hε, List.prefix_append [e] rest⟩

end Policy

namespace Client

variable (c : Client) {p : Policy} {m : Nat} {e : Event} {xs : List Exchange}

/-- A run that ends at its bound has made all requests allowed. -/
theorem length_requests_of_exhausted (h : (c.deliver p e xs).ending.Exhausted) :
    (c.requests (c.deliver p e xs)).length = max p.maxAttempts 1 := by
  obtain ⟨n, v, hnv⟩ := h
  obtain ⟨hn, hren, x, s, hx, hr, -⟩ := Policy.notConverged_iff.1 hnv
  have hlen := c.requests_of_renewed hn (hn ▸ hren) (hn ▸ hx) hr
  rw [hlen, hn]
  rfl

/-- A larger bound on submissions changes nothing of a run that ends for another reason than its
bound. If a run ends at its bound, its requests are the first ones of the run under the larger
bound, as many as were allowed. -/
theorem deliver_raised (h : p.maxAttempts ≤ m) :
    (¬(c.deliver p e xs).ending.Exhausted →
      c.deliver (p.withMaxAttempts m) e xs = c.deliver p e xs ∧
        c.requests (c.deliver (p.withMaxAttempts m) e xs) = c.requests (c.deliver p e xs)) ∧
    ((c.deliver p e xs).ending.Exhausted →
      (c.requests (c.deliver p e xs)).length = max p.maxAttempts 1 ∧
        c.requests (c.deliver p e xs) =
          (c.requests (c.deliver (p.withMaxAttempts m) e xs)).take (max p.maxAttempts 1)) := by
  have hrun := Policy.runFrom_raised h 1 e (c.exchanges xs)
  constructor
  · intro hend
    have hsame : c.deliver (p.withMaxAttempts m) e xs = c.deliver p e xs :=
      hrun.resolve_right fun hprefix => hend hprefix.1
    exact ⟨hsame, congrArg c.requests hsame⟩
  · intro hend
    have hlen := c.length_requests_of_exhausted hend
    have hsent : (c.deliver p e xs).sent <+: (c.deliver (p.withMaxAttempts m) e xs).sent := by
      rcases hrun with hsame | ⟨-, hsent⟩
      · exact ⟨[], (List.append_nil _).trans (congrArg Run.sent hsame).symm⟩
      · exact hsent
    refine ⟨hlen, ?_⟩
    rw [← hlen]
    exact List.prefix_iff_eq_take.1 (hsent.filterMap c.request?)

/-- A run that is delivered with the last submission allowed, and one that may make no more than one
and has to give up after it. -/
theorem deliver_raised_twice :
    let p : Policy := ⟨Matcher.unfiltered, 2, none⟩
    let c := Senders.pair.client
    let e := Senders.pair.event true
    c.deliver (p.withMaxAttempts 5) e [Senders.refused "1", Senders.accepted] =
        ⟨[e, Senders.oneRuleEvent "1"], .delivered .accepted 2 (Senders.oneRuleEvent "1")⟩ ∧
      c.requests (c.deliver (p.withMaxAttempts 0) e [Senders.refused "1", Senders.accepted]) =
        (c.requests (c.deliver (p.withMaxAttempts 2) e
          [Senders.refused "1", Senders.accepted])).take 1 := by
  intro p c e
  have hrun : c.deliver p e [Senders.refused "1", Senders.accepted] =
      ⟨[e, Senders.oneRuleEvent "1"], .delivered .accepted 2 (Senders.oneRuleEvent "1")⟩ := by
    decide +kernel
  have hstuck : (c.deliver (p.withMaxAttempts 0) e [Senders.refused "1", Senders.accepted]).ending =
      .failed (.notConverged 1 "1") := by
    decide +kernel
  constructor
  · refine ((c.deliver_raised (p := p) (by decide)).1 ?_).1.trans hrun
    rintro ⟨n, v, hnv⟩
    rw [hrun] at hnv
    cases hnv
  · exact ((c.deliver_raised (p := p.withMaxAttempts 0) (by decide)).2 ⟨1, "1", hstuck⟩).2

end Client

end Courier
