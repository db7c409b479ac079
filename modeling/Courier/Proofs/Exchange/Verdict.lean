import Courier.Exchange.Endpoint
import Courier.Proofs.Exchange.Body

/-!
# What a submission comes to

`Verdict` says row by row what an outcome means for the event: it speaks of the bytes that
arrived, not of chunks or of how they are read. The verdict on an outcome is its judgement
(`verdict_iff`), so every outcome has exactly one. A submission executes one request and
gives the verdict on what it meets (`submit_verdict`).

A snapshot comes only with a whole body that keeps to the limit and decodes
(`judge_eq_rulesOutdated_iff`). An announced length shortens the reading and does not
change the verdict, as long as it does not claim a body beyond the limit that then stays
within it (`judge_announced`).
-/

namespace Courier

/-- The body is whole and within the limit, and holds a snapshot. -/
structure Body.Holds (b : Body) (s : Snapshot) : Prop where
  within : ¬b.Exceeds maxSnapshotBytes
  whole : b.broken = false
  decoded : Snapshot.ofJson b.received = .ok s

/-- What an outcome means for the event. -/
inductive Verdict : Outcome → Except SubmitError Delivery → Prop where
  | failed (t : TransportError) : Verdict (.failed t) (.error (.transport t))
  /-- Too long a snapshot, also if the stream would break later. -/
  | tooLong {b : Body} (h : b.Exceeds maxSnapshotBytes) :
    Verdict (.answered ⟨412, b⟩) (.error (.protocol (.tooLong maxSnapshotBytes)))
  | brokenOff {b : Body} (h : ¬b.Exceeds maxSnapshotBytes) (hb : b.broken = true) :
    Verdict (.answered ⟨412, b⟩) (.error (.transport .body))
  | undecodable {b : Body} {f : Json.Fault} (h : ¬b.Exceeds maxSnapshotBytes)
    (hb : b.broken = false) (hf : Snapshot.ofJson b.received = .error f) :
    Verdict (.answered ⟨412, b⟩) (.error (.protocol (.undecodable f)))
  | outdated {b : Body} {s : Snapshot} (h : b.Holds s) :
    Verdict (.answered ⟨412, b⟩) (.error (.rulesOutdated s))
  | accepted {code : Nat} {b : Body} (h : 200 ≤ code) (h' : code < 300) :
    Verdict (.answered ⟨code, b⟩) (.ok .accepted)
  | irrelevant {b : Body} : Verdict (.answered ⟨406, b⟩) (.ok .irrelevant)
  /-- Any other status, with the text of the first bytes of the body. -/
  | unexpected {code : Nat} {b : Body} (h : code ≠ 412) (h' : code ≠ 406)
    (hs : code < 200 ∨ 300 ≤ code) :
    Verdict (.answered ⟨code, b⟩) (.error (.unexpectedStatus code
      (Body.excerpt (b.received.take (min maxErrorBodyBytes b.received.length)))))

/-! ## Answers 412 -/

theorem judgeSnapshot_of_exceeds {limit : Nat} {b : Body} (h : b.Exceeds limit) :
    b.judgeSnapshot limit = .protocol (.tooLong limit) := by
  rw [Body.judgeSnapshot, Body.readLimited_of_exceeds h]

theorem judgeSnapshot_of_broken {limit : Nat} {b : Body} (h : ¬b.Exceeds limit)
    (hb : b.broken = true) : b.judgeSnapshot limit = .transport .body := by
  rw [Body.judgeSnapshot, Body.readLimited_of_not_exceeds h, if_pos hb]

theorem judgeSnapshot_of_undecodable {limit : Nat} {b : Body} {f : Json.Fault}
    (h : ¬b.Exceeds limit) (hb : b.broken = false) (hf : Snapshot.ofJson b.received = .error f) :
    b.judgeSnapshot limit = .protocol (.undecodable f) := by
  simp [Body.judgeSnapshot, Body.readLimited_of_not_exceeds h, hb, hf]

theorem judgeSnapshot_of_holds {b : Body} {s : Snapshot} (h : b.Holds s) :
    b.judgeSnapshot maxSnapshotBytes = .rulesOutdated s := by
  simp [Body.judgeSnapshot, Body.readLimited_of_not_exceeds h.within, h.whole, h.decoded]

theorem judge_preconditionFailed (b : Body) :
    Outcome.judge (.answered ⟨412, b⟩) = .error (b.judgeSnapshot maxSnapshotBytes) :=
  rfl

/-- Every answer 412 has a verdict : the four rows leave no case out. -/
theorem verdict_preconditionFailed (b : Body) :
    Verdict (.answered ⟨412, b⟩) (.error (b.judgeSnapshot maxSnapshotBytes)) := by
  by_cases h : b.Exceeds maxSnapshotBytes
  · rw [judgeSnapshot_of_exceeds h]
    exact .tooLong h
  cases hb : b.broken with
  | true =>
    rw [judgeSnapshot_of_broken h hb]
    exact .brokenOff h hb
  | false =>
    cases hs : Snapshot.ofJson b.received with
    | error f =>
      rw [judgeSnapshot_of_undecodable h hb hs]
      exact .undecodable h hb hs
    | ok s =>
      have hholds : b.Holds s := ⟨h, hb, hs⟩
      rw [judgeSnapshot_of_holds hholds]
      exact .outdated hholds

/-! ## Every outcome -/

theorem isSuccess_iff (code : Nat) : Status.isSuccess code = true ↔ 200 ≤ code ∧ code < 300 := by
  simp [Status.isSuccess]

theorem verdict_judge (o : Outcome) : Verdict o o.judge := by
  cases o with
  | failed t => exact .failed t
  | answered r =>
    obtain ⟨code, b⟩ := r
    show Verdict _ (Response.judge ⟨code, b⟩)
    unfold Response.judge Status.preconditionFailed Status.notAcceptable
    dsimp only
    split
    · next h =>
      subst h
      exact verdict_preconditionFailed b
    split
    · next h =>
      obtain ⟨hl, hu⟩ := (isSuccess_iff code).1 h
      exact .accepted hl hu
    split
    · next h =>
      subst h
      exact .irrelevant
    · next h412 hs h406 =>
      have hs' : code < 200 ∨ 300 ≤ code := by
        rw [isSuccess_iff] at hs
        omega
      have htake : b.received.take (min maxErrorBodyBytes b.received.length) =
          b.received.take maxErrorBodyBytes := by
        rw [← List.take_take, List.take_length]
      rw [Body.readCapped_received, ← htake]
      exact .unexpected h412 h406 hs'

/-- No outcome has two verdicts. -/
theorem Verdict.eq_judge {o : Outcome} {v : Except SubmitError Delivery} (h : Verdict o v) :
    o.judge = v := by
  cases h with
  | failed t => rfl
  | tooLong h => rw [judge_preconditionFailed, judgeSnapshot_of_exceeds h]
  | brokenOff h hb => rw [judge_preconditionFailed, judgeSnapshot_of_broken h hb]
  | undecodable h hb hf => rw [judge_preconditionFailed, judgeSnapshot_of_undecodable h hb hf]
  | outdated h => rw [judge_preconditionFailed, judgeSnapshot_of_holds h]
  | @accepted code b hl hu =>
    show Response.judge ⟨code, b⟩ = _
    unfold Response.judge Status.preconditionFailed
    rw [if_neg (by show code ≠ 412; omega), if_pos ((isSuccess_iff code).2 ⟨hl, hu⟩)]
  | irrelevant => rfl
  | @unexpected code b h412 h406 hs =>
    show Response.judge ⟨code, b⟩ = _
    have hns : ¬Status.isSuccess code = true := by
      rw [isSuccess_iff]
      omega
    unfold Response.judge Status.preconditionFailed Status.notAcceptable
    rw [if_neg h412, if_neg hns, if_neg h406, Body.readCapped_received, ← List.take_take,
      List.take_length]

theorem verdict_iff {o : Outcome} {v : Except SubmitError Delivery} :
    Verdict o v ↔ o.judge = v :=
  ⟨Verdict.eq_judge, fun h => h ▸ verdict_judge o⟩

/-- Outdated rules come with a snapshot only from a whole answer 412 within the limit. -/
theorem judge_eq_rulesOutdated_iff {o : Outcome} {s : Snapshot} :
    o.judge = .error (.rulesOutdated s) ↔ ∃ b, o = .answered ⟨412, b⟩ ∧ b.Holds s := by
  rw [← verdict_iff]
  constructor
  · intro h
    cases h with
    | outdated hb => exact ⟨_, rfl, hb⟩
  · rintro ⟨b, rfl, hb⟩
    exact .outdated hb

/-! ## What a verdict does not depend on -/

/-- Two bodies with the same bytes and the same end, which both keep to the limit or both
exceed it, are judged alike. -/
theorem judge_congr (code : Nat) {b b' : Body} (hr : b.received = b'.received)
    (hb : b.broken = b'.broken)
    (he : b.Exceeds maxSnapshotBytes ↔ b'.Exceeds maxSnapshotBytes) :
    Outcome.judge (.answered ⟨code, b⟩) = Outcome.judge (.answered ⟨code, b'⟩) := by
  show Response.judge ⟨code, b⟩ = Response.judge ⟨code, b'⟩
  have hs : b.judgeSnapshot maxSnapshotBytes = b'.judgeSnapshot maxSnapshotBytes := by
    rw [Body.judgeSnapshot, Body.judgeSnapshot, Body.readLimited_congr hr hb he]
  have hc : (Body.readCapped maxErrorBodyBytes [] b.chunks).1 =
      (Body.readCapped maxErrorBodyBytes [] b'.chunks).1 := by
    rw [Body.readCapped_received, Body.readCapped_received, hr]
  simp only [Response.judge, hs, hc]

theorem judge_announced (code n : Nat) (chunks : List Chunk) (broken : Bool)
    (h : maxSnapshotBytes < n → maxSnapshotBytes < chunks.flatten.length) :
    Outcome.judge (.answered ⟨code, ⟨chunks, some n, broken⟩⟩) =
      Outcome.judge (.answered ⟨code, ⟨chunks, none, broken⟩⟩) :=
  judge_congr code rfl rfl (Body.exceeds_announced h)

/-- How a body is cut into chunks does not matter. -/
theorem judge_chunks (code : Nat) {chunks chunks' : List Chunk}
    (h : chunks.flatten = chunks'.flatten) (announced : Option Nat) (broken : Bool) :
    Outcome.judge (.answered ⟨code, ⟨chunks, announced, broken⟩⟩) =
      Outcome.judge (.answered ⟨code, ⟨chunks', announced, broken⟩⟩) :=
  judge_congr code h rfl (by simp only [Body.Exceeds, Body.received, h])

/-! ## Submissions -/

theorem submit_run {σ : Type} (c : Endpoint) (t : Transport σ) (s : σ) (e : Event) :
    (c.submit t e).run s =
      (((t (c.request e)).run s).1.result, ((t (c.request e)).run s).2) :=
  rfl

/-- A submission has exactly one request executed, and once that has met an outcome its
result is the one verdict on the outcome. Hence outdated rules come only with a whole
answer 412 that keeps to the limit and decodes, an announced length shortens the reading
without changing what it gives, and the chunks of a body do not matter. -/
theorem submit_verdict {σ : Type} (c : Endpoint) (t : Transport σ) (s : σ) (e : Event) :
    (∃ (x : Exchange) (s' : σ) (v : Except SubmitError Delivery),
      (t { method := "POST"
           url := c.processEvent
           headers := [("accept", "application/json"), ("content-type", "application/json")]
           body := e.toJson }).run s = (x, s') ∧
        (c.submit t e).run s = (x.duration.map fun _ => v, s') ∧
        Verdict x.outcome v ∧ ∀ w, Verdict x.outcome w → w = v) ∧
      (∀ (o : Outcome) (n : Snapshot), Verdict o (.error (.rulesOutdated n)) ↔
        ∃ b, o = .answered ⟨412, b⟩ ∧ b.Holds n) ∧
      (∀ (code n : Nat) (chunks : List Chunk) (broken : Bool),
        (maxSnapshotBytes < n → maxSnapshotBytes < chunks.flatten.length) →
        Outcome.judge (.answered ⟨code, ⟨chunks, some n, broken⟩⟩) =
          Outcome.judge (.answered ⟨code, ⟨chunks, none, broken⟩⟩)) ∧
      (∀ (code : Nat) (chunks chunks' : List Chunk) (announced : Option Nat) (broken : Bool),
        chunks.flatten = chunks'.flatten →
        Outcome.judge (.answered ⟨code, ⟨chunks, announced, broken⟩⟩) =
          Outcome.judge (.answered ⟨code, ⟨chunks', announced, broken⟩⟩)) := by
  refine ⟨?_, fun o n => ?_, judge_announced, fun code _ _ announced broken h =>
    judge_chunks code h announced broken⟩
  · refine ⟨((t (c.request e)).run s).1, ((t (c.request e)).run s).2,
      ((t (c.request e)).run s).1.outcome.judge, rfl, submit_run c t s e, verdict_judge _, ?_⟩
    intro w hw
    exact hw.eq_judge.symm
  · rw [verdict_iff]
    exact judge_eq_rulesOutdated_iff

end Courier
