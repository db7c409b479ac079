import Courier.Exchange.Endpoint
import Mathlib.Order.Nat

/-!
# Submissions with a signal

A submission with a signal is a race : at every instant the signal is looked at first, and the
outcome only if the signal is not there (`Exchange.Polls`). So the signal wins if it comes no later
than the outcome (`Overtaken`), which then does not matter, and otherwise the outcome is judged as
without a signal (`Completes`). `Exchange.resultUntil` is the end of that race (`polls_iff`), and
the result of a submission over a transport (`submitUntil_result`).
-/

namespace Courier

namespace Exchange

/-- The signal comes, and no later than the outcome. -/
def Overtaken (signal : Option Nat) (x : Exchange) : Prop :=
  ∃ time, signal = some time ∧ ∀ d, x.duration = some d → time ≤ d

/-- The outcome comes, and before the signal. -/
def Completes (signal : Option Nat) (x : Exchange) : Prop :=
  ∃ d, x.duration = some d ∧ ∀ time, signal = some time → d < time

variable {signal : Option Nat} {x : Exchange}

/-! ## The winner -/

theorem Completes.not_overtaken (h : x.Completes signal) : ¬x.Overtaken signal := by
  obtain ⟨d, hd, hlt⟩ := h
  rintro ⟨time, hs, hle⟩
  exact Nat.not_le.2 (hlt time hs) (hle d hd)

theorem overtaken_or_completes (signal : Option Nat) (x : Exchange) :
    x.Overtaken signal ∨ x.Completes signal ∨ signal = none ∧ x.duration = none := by
  cases hs : signal with
  | none =>
    cases hd : x.duration with
    | none => exact .inr (.inr ⟨rfl, rfl⟩)
    | some d => exact .inr (.inl ⟨d, hd, by simp⟩)
  | some time =>
    by_cases h : ∀ d, x.duration = some d → time ≤ d
    · exact .inl ⟨time, rfl, h⟩
    · simp only [Classical.not_forall, Nat.not_le] at h
      obtain ⟨d, hd, hlt⟩ := h
      refine .inr (.inl ⟨d, hd, fun time' h' => ?_⟩)
      obtain rfl := Option.some.inj h'
      exact hlt

theorem resultUntil_of_overtaken (h : x.Overtaken signal) :
    x.resultUntil signal = some (.error .cancelled) := by
  obtain ⟨time, rfl, hle⟩ := h
  have hall : x.duration.all (time ≤ ·) = true := by
    cases hd : x.duration with
    | none => rfl
    | some d => exact decide_eq_true (hle d hd)
  rw [resultUntil, if_pos hall]

theorem resultUntil_of_completes (h : x.Completes signal) :
    x.resultUntil signal = some x.outcome.judge := by
  obtain ⟨d, hd, hlt⟩ := h
  have hresult : x.result = some x.outcome.judge := by
    rw [result, hd, Option.map_some]
  cases signal with
  | none => exact hresult
  | some time =>
    have hall : ¬x.duration.all (time ≤ ·) = true := by
      rw [hd, Option.all_some, decide_eq_true_eq]
      exact Nat.not_le.2 (hlt time rfl)
    rw [resultUntil, if_neg hall, hresult]

theorem resultUntil_of_never (hs : signal = none) (hx : x.duration = none) :
    x.resultUntil signal = none := by
  rw [hs, resultUntil, result, hx, Option.map_none]

/-- A submission ends by the signal or with the verdict on its outcome. -/
theorem resultUntil_eq_some_iff {r : Except SubmitError Delivery} :
    x.resultUntil signal = some r ↔
      x.Overtaken signal ∧ r = .error .cancelled ∨ x.Completes signal ∧ r = x.outcome.judge := by
  rcases overtaken_or_completes signal x with h | h | ⟨hs, hx⟩
  · have hn : ¬x.Completes signal := fun hc => hc.not_overtaken h
    simp [resultUntil_of_overtaken h, h, hn, eq_comm]
  · simp [resultUntil_of_completes h, h, h.not_overtaken, eq_comm]
  · subst hs
    simp [resultUntil_of_never rfl hx, Overtaken, Completes, hx]

/-! ## The race -/

/-- What a submission comes to that still runs at the instant `now`. The signal is looked at before
the outcome. -/
inductive Polls (signal : Option Nat) (x : Exchange) :
    Nat → Except SubmitError Delivery → Prop where
  | signalled {now : Nat} (hs : signal = some now) : Polls signal x now (.error .cancelled)
  | answered {now : Nat} (hs : signal ≠ some now) (hx : x.duration = some now) :
    Polls signal x now x.outcome.judge
  | pending {now : Nat} {r : Except SubmitError Delivery} (hs : signal ≠ some now)
    (hx : x.duration ≠ some now) (h : Polls signal x (now + 1) r) : Polls signal x now r

/-- As long as neither the signal nor the outcome is there a submission goes on. -/
theorem Polls.earlier {r : Except SubmitError Delivery} {start now : Nat} (hle : start ≤ now)
    (hs : ∀ time, signal = some time → now ≤ time) (hx : ∀ d, x.duration = some d → now ≤ d)
    (h : Polls signal x now r) : Polls signal x start r := by
  induction hle with
  | refl => exact h
  | @step now hle ih =>
    refine ih (fun time ht => Nat.le_of_succ_le (hs time ht))
      (fun d hd => Nat.le_of_succ_le (hx d hd)) (.pending (fun ht => ?_) (fun hd => ?_) h)
    · exact Nat.not_succ_le_self now (hs now ht)
    · exact Nat.not_succ_le_self now (hx now hd)

/-- A race that neither party has won before `now` ends as the result says. -/
theorem Polls.resultUntil_eq {r : Except SubmitError Delivery} {now : Nat}
    (h : Polls signal x now r) (hs : ∀ time, signal = some time → now ≤ time)
    (hx : ∀ d, x.duration = some d → now ≤ d) : x.resultUntil signal = some r := by
  induction h with
  | signalled ht => exact resultUntil_of_overtaken ⟨_, ht, hx⟩
  | answered hne hd =>
    refine resultUntil_of_completes ⟨_, hd, fun time ht => Nat.lt_of_le_of_ne (hs time ht) ?_⟩
    rintro rfl
    exact hne ht
  | pending hne hne' _ ih =>
    refine ih (fun time ht => Nat.lt_of_le_of_ne (hs time ht) ?_)
      (fun d hd => Nat.lt_of_le_of_ne (hx d hd) ?_)
    · rintro rfl
      exact hne ht
    · rintro rfl
      exact hne' hd

/-- The result of a submission with a signal is the end of the race from its start on. -/
theorem polls_iff {r : Except SubmitError Delivery} :
    Polls signal x 0 r ↔ x.resultUntil signal = some r := by
  constructor
  · intro h
    exact h.resultUntil_eq (fun _ _ => Nat.zero_le _) (fun _ _ => Nat.zero_le _)
  · rw [resultUntil_eq_some_iff]
    rintro (⟨⟨time, hs, hle⟩, rfl⟩ | ⟨⟨d, hd, hlt⟩, rfl⟩)
    · refine Polls.earlier (Nat.zero_le time) (fun time' h => ?_) hle (.signalled hs)
      exact Nat.le_of_eq (Option.some.inj (hs.symm.trans h))
    · refine Polls.earlier (Nat.zero_le d) (fun time h => Nat.le_of_lt (hlt time h))
        (fun d' h => ?_)
        (.answered (fun h => Nat.lt_irrefl d (hlt d h)) hd)
      exact Nat.le_of_eq (Option.some.inj (hd.symm.trans h))

end Exchange

/-! ## Submissions over a transport -/

namespace Endpoint

variable {σ : Type} (c : Endpoint) (t : Transport σ) (s : σ) (e : Event)

/-- The exchange that the request of an event meets. -/
def met : Exchange :=
  ((t (c.request e)).run s).1

/-- Without a request there is a signal from the start, which the exchange that the request would
have met could not have overtaken. -/
theorem submitUntil_result (signal : Option Nat) :
    ((c.submitUntil t signal e).run s).1 = (c.met t s e).resultUntil signal := by
  unfold submitUntil
  split
  · rfl
  · next h =>
    obtain rfl : signal = some 0 := by simpa [Exchange.isRequested] using h
    exact (Exchange.resultUntil_of_overtaken ⟨0, rfl, fun _ _ => Nat.zero_le _⟩).symm

end Endpoint

end Courier
