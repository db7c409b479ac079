import Courier.Proofs.Exchange.Signal
import Courier.Proofs.Exchange.Verdict

/-!
# The status of an error

An error of a submission carries a status exactly if the submission was answered in time, and then
that of the answer (`submitUntil_status`). One answer leaves no status behind : a 412 whose body
breaks off within the limit (`BreaksOff`). It ends in the error of a transport, and that carries no
status (`submit_status_broken`).
-/

namespace Courier

/-- An answer 412 breaks off before there are more bytes than allowed. -/
def Response.BreaksOff (r : Response) : Prop :=
  r.status = 412 ∧ r.body.broken = true ∧ ¬r.body.Exceeds maxSnapshotBytes

theorem Response.not_breaksOff {r : Response} (h : r.body.broken = false) : ¬r.BreaksOff := by
  rintro ⟨-, hb, -⟩
  cases h.symm.trans hb

theorem TransportError.status?_eq_none (t : TransportError) : t.status? = none := by
  cases t <;> rfl

/-- The error of an answer carries its status, unless it broke off. -/
theorem Verdict.status?_of_answered {r : Response} {f : SubmitError}
    (h : Verdict (.answered r) (.error f)) (code : Nat) :
    f.status? = some code ↔ r.status = code ∧ ¬r.BreaksOff := by
  cases h with
  | tooLong hlong =>
    have hwhole : ¬Response.BreaksOff ⟨412, _⟩ := fun hr => hr.2.2 hlong
    exact Option.some_inj.trans (and_iff_left hwhole).symm
  | brokenOff hshort hb =>
    have hbreaks : Response.BreaksOff ⟨412, _⟩ := ⟨rfl, hb, hshort⟩
    exact iff_of_false (by simp [SubmitError.status?, TransportError.status?])
      fun hr => hr.2 hbreaks
  | undecodable _ hb => exact Option.some_inj.trans (and_iff_left (Response.not_breaksOff hb)).symm
  | outdated hs => exact Option.some_inj.trans (and_iff_left (Response.not_breaksOff hs.whole)).symm
  | unexpected h412 =>
    exact Option.some_inj.trans (and_iff_left fun hr : Response.BreaksOff _ => h412 hr.1).symm

/-- Without an answer there is no status. -/
theorem Verdict.status?_of_failed {t : TransportError} {f : SubmitError}
    (h : Verdict (.failed t) (.error f)) : f.status? = none := by
  cases h with
  | failed => exact t.status?_eq_none

namespace Endpoint

/-- The error of a submission carries the status of its answer, if that came before the signal and
did not break off, and else none. -/
theorem submitUntil_status {σ : Type} (c : Endpoint) (t : Transport σ) (s : σ) (e : Event)
    (signal : Option Nat) {f : SubmitError}
    (h : ((c.submitUntil t signal e).run s).1 = some (.error f)) (code : Nat) :
    f.status? = some code ↔ (c.met t s e).Completes signal ∧
      ∃ r, (c.met t s e).outcome = .answered r ∧ r.status = code ∧ ¬r.BreaksOff := by
  rw [submitUntil_result, Exchange.resultUntil_eq_some_iff] at h
  rcases h with ⟨hover, hf⟩ | ⟨hin, hf⟩
  · obtain rfl := Except.error.inj hf
    exact iff_of_false (by simp [SubmitError.status?]) fun hr => hr.1.not_overtaken hover
  · have hv := verdict_judge (c.met t s e).outcome
    rw [← hf] at hv
    cases ho : (c.met t s e).outcome with
    | failed err =>
      rw [ho] at hv
      simp [hv.status?_of_failed]
    | answered r =>
      rw [ho] at hv
      simp [hv.status?_of_answered, hin]

/-- The endpoint below the host `h`. -/
def plain : Endpoint :=
  let url (segment : List Char) : Url :=
    ⟨"http".toList, some ⟨[], none, .domain ['h'], none⟩, .segments [segment], none, none⟩
  ⟨url [], url "process-event".toList⟩

/-- A transport whose requests all meet the same answer, after two milliseconds. -/
def answering (code : Nat) (b : Body) : Transport Unit :=
  fun _ => pure ⟨.answered ⟨code, b⟩, some 2⟩

/-- An answer 503 whose body breaks off, two milliseconds after the request and three before the
signal. -/
theorem submitUntil_status_unavailable :
    let e : Event := .bare "n" .unknown
    let t := answering 503 ⟨[], none, true⟩
    ((plain.submitUntil t (some 5) e).run ()).1 = some (.error (.unexpectedStatus 503 "")) ∧
      ((SubmitError.unexpectedStatus 503 "").status? = some 503 ↔
        (plain.met t () e).Completes (some 5) ∧
          ∃ r, (plain.met t () e).outcome = .answered r ∧ r.status = 503 ∧ ¬r.BreaksOff) :=
  ⟨rfl, plain.submitUntil_status _ () _ (some 5) rfl 503⟩

/-- The error of an answer 412 that breaks off carries no status. -/
theorem submit_status_broken :
    ∃ f, ((plain.submit (answering 412 ⟨[], none, true⟩) (.bare "n" .unknown)).run ()).1 =
        some (.error f) ∧ f.status? ≠ some 412 :=
  ⟨.transport .body, rfl, by decide⟩

end Endpoint

end Courier
