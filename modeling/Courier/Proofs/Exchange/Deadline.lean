import Courier.Proofs.Exchange.Convergence
import Courier.Proofs.Exchange.Endings

/-!
# Runs under a deadline

A deadline is a signal for every submission of a run. Where the outcome comes before it, an exchange
does the same to a run as without a deadline (`advance_withTimeout`), and what a run does up to a
request depends on the exchanges before that request only (`sent_take_congr`). So a run is the same
without its deadline (`runFrom_withTimeout`), or some exchange is the first one that takes too long
(`Run.Expires`). Then the run gives up with the request of that exchange, having made the requests
of the run without a deadline up to there, and what would have come later does not matter
(`deliver_deadline`).
-/

namespace Courier

/-- The exchange of the `k`-th request, counted from zero, is the first one of the run that takes
the given time. -/
structure Run.Expires (run : Run) (answers : List Exchange) (time k : Nat) : Prop where
  attempted : k < run.sent.length
  taken : ∃ x, answers[k]? = some x ∧ x.Overtaken (some time)
  first : ∀ i < k, ∀ x, answers[i]? = some x → ¬x.Overtaken (some time)

namespace Policy

/-- The policy with another bound on the time for a submission, or with none. -/
def withTimeout (p : Policy) (timeout : Option Nat) : Policy :=
  { p with timeout }

variable {p q : Policy} {time : Nat} {e : Event} {xs ys : List Exchange}

/-! ## One exchange -/

theorem deadline_of_pos (h : 0 < time) : Exchange.deadline time = time :=
  Nat.max_eq_left h

/-- An exchange that keeps to the deadline does to a run what it does without one. -/
theorem advance_withTimeout {x : Exchange} (h : 0 < time) (hx : ¬x.Overtaken (some time))
    (attempt : Nat) (e : Event) :
    (p.withTimeout (some time)).advance attempt e x = (p.withTimeout none).advance attempt e x := by
  obtain hin | ⟨hs, -⟩ := (Exchange.overtaken_or_completes (some time) x).resolve_left hx
  · have hin' : x.Completes none := by
      obtain ⟨d, hd, -⟩ := hin
      exact ⟨d, hd, by simp⟩
    have hresult : x.resultUntil (some (Exchange.deadline time)) = x.resultUntil none := by
      rw [deadline_of_pos h, Exchange.resultUntil_of_completes hin,
        Exchange.resultUntil_of_completes hin']
    simp only [advance, advanceIn, withTimeout, Option.map_some, Option.map_none, hresult]
    rfl
  · cases hs

/-! ## Whole runs -/

/-- The first requests of a run depend on what the exchanges before them do. -/
theorem sent_take_congr :
    ∀ (k attempt : Nat) (e : Event) (xs ys : List Exchange),
      (∀ i < k, ∀ attempt e,
        xs[i]?.map (p.advance attempt e) = ys[i]?.map (q.advance attempt e)) →
        (p.runFrom attempt e xs).sent.take (k + 1) = (q.runFrom attempt e ys).sent.take (k + 1)
  | 0, attempt, e, xs, ys, _ => by
    obtain ⟨rest, hp⟩ := p.sent_eq_cons attempt e xs
    obtain ⟨rest', hq⟩ := q.sent_eq_cons attempt e ys
    rw [hp, hq, List.take_succ_cons, List.take_succ_cons, List.take_zero, List.take_zero]
  | k + 1, attempt, e, xs, ys, h => by
    have hfirst := h 0 (Nat.succ_pos k) attempt e
    match xs, ys with
    | [], [] => rfl
    | [], y :: ys => cases hfirst
    | x :: xs, [] => cases hfirst
    | x :: xs, y :: ys =>
      have hsame : p.advance attempt e x = q.advance attempt e y := Option.some.inj hfirst
      cases ha : p.advance attempt e x with
      | ended ε => rw [runFrom_of_ended ha, runFrom_of_ended (hsame.symm.trans ha)]
      | submitting e' =>
        have hrest := sent_take_congr k (attempt + 1) e' xs ys fun i hi => h (i + 1) (by omega)
        rw [runFrom_of_submitting ha, runFrom_of_submitting (hsame.symm.trans ha),
          List.take_succ_cons, List.take_succ_cons, hrest]

/-- A run none of whose exchanges takes too long is the same without a deadline. -/
theorem runFrom_withTimeout (h : 0 < time) :
    ∀ (attempt : Nat) (e : Event) (xs : List Exchange),
      (∀ i x, i < ((p.withTimeout (some time)).runFrom attempt e xs).sent.length →
        xs[i]? = some x → ¬x.Overtaken (some time)) →
        (p.withTimeout (some time)).runFrom attempt e xs = (p.withTimeout none).runFrom attempt e xs
  | _, _, [], _ => rfl
  | attempt, e, x :: xs, hx => by
    obtain ⟨rest, hsent⟩ := (p.withTimeout (some time)).sent_eq_cons attempt e (x :: xs)
    have hfirst : ¬x.Overtaken (some time) := hx 0 x (by simp [hsent]) rfl
    have hsame := advance_withTimeout (p := p) h hfirst attempt e
    cases ha : (p.withTimeout (some time)).advance attempt e x with
    | ended ε => rw [runFrom_of_ended ha, runFrom_of_ended (hsame.symm.trans ha)]
    | submitting e' =>
      rw [runFrom_of_submitting ha] at hx
      rw [runFrom_of_submitting ha, runFrom_of_submitting (hsame.symm.trans ha),
        runFrom_withTimeout h (attempt + 1) e' xs fun i y hi => hx (i + 1) y (Nat.succ_lt_succ hi)]

/-- Up to the request whose exchange is the first to take too long, a run is the one without a
deadline. -/
theorem sent_take_withTimeout (h : 0 < time) {k : Nat}
    (hfirst : ∀ i < k, ∀ x, xs[i]? = some x → ¬x.Overtaken (some time)) :
    ((p.withTimeout (some time)).deliver e xs).sent.take (k + 1) =
      ((p.withTimeout none).deliver e xs).sent.take (k + 1) := by
  refine sent_take_congr k 1 e xs xs fun i hi attempt e => ?_
  cases hx : xs[i]? with
  | none => rfl
  | some x => exact congrArg some (advance_withTimeout h (hfirst i hi x hx) attempt e)

theorem lt_length_of_take_eq {α : Type} {k : Nat} {l l' : List α}
    (h : l.take (k + 1) = l'.take (k + 1)) (hk : k < l.length) : k < l'.length := by
  have hlen := congrArg List.length h
  rw [List.length_take, List.length_take] at hlen
  omega

/-- Which exchange is the first to take too long does not depend on the deadline being there. -/
theorem expires_withTimeout (h : 0 < time) (k : Nat) :
    ((p.withTimeout (some time)).deliver e xs).Expires xs time k ↔
      ((p.withTimeout none).deliver e xs).Expires xs time k := by
  constructor
  · rintro ⟨hk, hx, hfirst⟩
    exact ⟨lt_length_of_take_eq (sent_take_withTimeout h hfirst) hk, hx, hfirst⟩
  · rintro ⟨hk, hx, hfirst⟩
    exact ⟨lt_length_of_take_eq (sent_take_withTimeout h hfirst).symm hk, hx, hfirst⟩

/-- A run that meets an exchange that takes too long ends with its request, cancelled. -/
theorem ended_of_expires (h : 0 < time) {k : Nat}
    (hx : ((p.withTimeout (some time)).deliver e xs).Expires xs time k) :
    ((p.withTimeout (some time)).deliver e xs).ending =
        .failed (.submission (k + 1) .cancelled) ∧
      ((p.withTimeout (some time)).deliver e xs).sent.length = k + 1 := by
  obtain ⟨hk, ⟨x, hget, hover⟩, -⟩ := hx
  obtain ⟨eₖ, hsent⟩ : ∃ eₖ, ((p.withTimeout (some time)).deliver e xs).sent[k]? = some eₖ :=
    ⟨_, List.getElem?_eq_getElem hk⟩
  have hlate : (p.withTimeout (some time)).Late x := by
    rwa [late_iff, withTimeout, Option.map_some, deadline_of_pos h]
  have hstep : (p.withTimeout (some time)).Step (k + 1) eₖ x
      (.ended (.failed (.submission (k + 1) .cancelled))) := .cancelled hlate
  exact ⟨(ended_iff (by simp)).2 ⟨k, eₖ, x, hsent, hget, hstep⟩,
    length_of_ended hsent hget (by rwa [Nat.add_comm 1 k])⟩

/-- What would have come after an exchange that takes too long does not matter. -/
theorem deliver_of_expires (h : 0 < time) {k : Nat} {y : Exchange}
    (hx : ((p.withTimeout (some time)).deliver e xs).Expires xs time k)
    (hys : ys.take k = xs.take k) (hy : ys[k]? = some y) (hover : y.Overtaken (some time)) :
    (p.withTimeout (some time)).deliver e ys = (p.withTimeout (some time)).deliver e xs := by
  have hget : ∀ i < k, ys[i]? = xs[i]? := fun i hi => by
    have hi' := congrArg (·[i]?) hys
    rwa [List.getElem?_take_of_lt hi, List.getElem?_take_of_lt hi] at hi'
  have htake : ((p.withTimeout (some time)).deliver e ys).sent.take (k + 1) =
      ((p.withTimeout (some time)).deliver e xs).sent.take (k + 1) :=
    sent_take_congr k 1 e ys xs fun i hi attempt e => by rw [hget i hi]
  have hexpires : ((p.withTimeout (some time)).deliver e ys).Expires ys time k :=
    ⟨lt_length_of_take_eq htake.symm hx.attempted, ⟨y, hy, hover⟩,
      fun i hi x hi' => hx.first i hi x ((hget i hi).symm.trans hi')⟩
  obtain ⟨hend, hlen⟩ := ended_of_expires h hx
  obtain ⟨hend', hlen'⟩ := ended_of_expires h hexpires
  rw [List.take_of_length_le hlen'.le, List.take_of_length_le hlen.le] at htake
  exact Run.ext htake (hend'.trans hend.symm)

end Policy

/-! ## The requests of a run -/

namespace Client

variable (c : Client) {p : Policy} {time : Nat} {e : Event} {xs : List Exchange}

theorem exchanges_of_makes (h : c.refusal? = none) (xs : List Exchange) : c.exchanges xs = xs := by
  rw [exchanges, h]

/-- A client that can make no request never has to wait. -/
theorem refusal?_eq_none_of_overtaken (h : 0 < time) {k : Nat} {x : Exchange}
    (hx : (c.exchanges xs)[k]? = some x) (hover : x.Overtaken (some time)) :
    c.refusal? = none := by
  cases hr : c.refusal? with
  | none => rfl
  | some t =>
    obtain ⟨time', ht, hle⟩ := hover
    obtain rfl := Option.some.inj ht
    rw [exchanges, hr, List.getElem?_singleton] at hx
    split at hx
    · obtain rfl := Option.some.inj hx
      exact absurd (hle 0 rfl) (Nat.not_le.2 h)
    · cases hx

/-- A run whose exchanges all keep to the deadline is the one without a deadline. Otherwise it ends,
cancelled, with the request of the first exchange that does not, whatever would have come later, and
its requests are the first ones of the run without a deadline. A submission with a signal comes to
what a race comes to in which the signal is looked at first : it is cancelled, whatever the outcome,
if the signal comes no later, and a signal that never comes changes nothing. -/
theorem deliver_deadline (p : Policy) (h : 0 < time) (e : Event) (xs : List Exchange) :
    let timed := c.deliver (p.withTimeout (some time)) e xs
    let plain := c.deliver (p.withTimeout none) e xs
    ((∀ i x, i < timed.sent.length → (c.exchanges xs)[i]? = some x → ¬x.Overtaken (some time)) →
        timed = plain ∧ c.requests timed = c.requests plain) ∧
      (∀ k, timed.Expires (c.exchanges xs) time k ↔ plain.Expires (c.exchanges xs) time k) ∧
      (∀ k, timed.Expires (c.exchanges xs) time k →
        (c.requests timed).length = k + 1 ∧
          c.requests timed = (c.requests plain).take (k + 1) ∧
          (∃ f, timed.ending = .failed f ∧ f = .submission (k + 1) .cancelled ∧
            f.message = "event submission failed on attempt " ++ toString (k + 1) ∧
            f.reasons = ["event submission cancelled"]) ∧
          ∀ ys y, ys.take k = xs.take k → ys[k]? = some y → y.Overtaken (some time) →
            c.deliver (p.withTimeout (some time)) e ys = timed) ∧
      ∀ {σ : Type} (t : Transport σ) (s : σ) (signal : Option Nat),
        ((c.endpoint.met t s e).Overtaken signal →
          ((c.endpoint.submitUntil t signal e).run s).1 = some (.error .cancelled)) ∧
        (∀ r, ((c.endpoint.submitUntil t signal e).run s).1 = some r ↔
          (c.endpoint.met t s e).Polls signal 0 r) ∧
        c.endpoint.submitUntil t none e = c.endpoint.submit t e := by
  intro timed plain
  refine ⟨fun hx => ?_, Policy.expires_withTimeout h, fun k hk => ?_, fun t s signal =>
    ⟨fun hover => ?_, fun r => ?_, rfl⟩⟩
  · have hsame : timed = plain := Policy.runFrom_withTimeout h 1 e (c.exchanges xs) hx
    exact ⟨hsame, congrArg c.requests hsame⟩
  · obtain ⟨x, hget, hover⟩ := hk.taken
    have hc := c.refusal?_eq_none_of_overtaken h hget hover
    obtain ⟨hend, hlen⟩ := Policy.ended_of_expires h hk
    have hfirst : timed.sent <+: plain.sent := by
      have htake := Policy.sent_take_withTimeout (p := p) (e := e) h hk.first
      rw [List.take_of_length_le hlen.le] at htake
      exact htake ▸ List.take_prefix _ _
    have hrequests : (c.requests timed).length = k + 1 := (c.length_requests hc timed).trans hlen
    refine ⟨hrequests, ?_, ⟨_, hend, rfl, rfl, rfl⟩, fun ys y hys hy hover' => ?_⟩
    · rw [← hrequests]
      exact List.prefix_iff_eq_take.1 (hfirst.filterMap c.request?)
    · have htimed : timed = (p.withTimeout (some time)).deliver e xs :=
        congrArg _ (c.exchanges_of_makes hc xs)
      rw [htimed, c.exchanges_of_makes hc] at hk
      rw [htimed, deliver, c.exchanges_of_makes hc]
      exact Policy.deliver_of_expires h hk hys hy hover'
  · rw [Endpoint.submitUntil_result, Exchange.resultUntil_of_overtaken hover]
  · rw [Endpoint.submitUntil_result, Exchange.polls_iff]

/-- An answer that takes five milliseconds, or that never comes. -/
def slow (duration : Option Nat) : Exchange :=
  ⟨Senders.accepted.outcome, duration⟩

/-- A run that is delivered with its second request, each answer coming within five milliseconds,
and one whose second answer comes just when they are over, or never. -/
theorem deliver_deadline_hanging :
    let p : Policy := ⟨Matcher.unfiltered, 3, none⟩
    let c := Senders.pair.client
    let e := Senders.pair.event true
    let timed := p.withTimeout (some 5)
    c.deliver timed e [Senders.refused "1", Senders.accepted] =
        c.deliver (p.withTimeout none) e [Senders.refused "1", Senders.accepted] ∧
      (c.requests (c.deliver timed e [Senders.refused "1", slow (some 5)])).length = 2 ∧
      c.deliver timed e [Senders.refused "1", slow none] =
        c.deliver timed e [Senders.refused "1", slow (some 5)] := by
  intro p c e timed
  have hintime : ∀ x ∈ [Senders.refused "1", Senders.accepted], ¬x.Overtaken (some 5) := by
    simp [Exchange.Overtaken, Senders.refused, Senders.accepted]
  have hexpires : (c.deliver timed e [Senders.refused "1", slow (some 5)]).Expires
      (c.exchanges [Senders.refused "1", slow (some 5)]) 5 1 := by
    rw [c.exchanges_of_makes Senders.pair_makes_requests]
    refine ⟨by decide +kernel, ⟨slow (some 5), rfl, 5, rfl, by simp [slow]⟩, fun i hi x hx => ?_⟩
    obtain rfl : i = 0 := by omega
    obtain rfl : Senders.refused "1" = x := Option.some.inj hx
    exact hintime _ (List.mem_cons_self ..)
  refine ⟨?_, ?_⟩
  · refine ((c.deliver_deadline p (by decide) e _).1 fun i x _ hx => ?_).1
    rw [c.exchanges_of_makes Senders.pair_makes_requests] at hx
    exact hintime x (List.mem_of_getElem? hx)
  · obtain ⟨hlen, -, -, hlater⟩ :=
      (c.deliver_deadline p (by decide) e [Senders.refused "1", slow (some 5)]).2.2.1 1 hexpires
    exact ⟨hlen, hlater _ (slow none) rfl rfl ⟨5, rfl, by simp [slow]⟩⟩

end Client

end Courier
