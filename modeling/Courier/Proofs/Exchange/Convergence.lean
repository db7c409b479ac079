import Courier.Proofs.Event.RoundTrip
import Courier.Proofs.Exchange.Requests

/-!
# Convergence under changing rules

Any number of runs share a client (`Senders`). Their server has one snapshot, which it may
replace at any moment by one with a version that it never had, and it answers each request
at once (`Traffic.Replies`). `Senders.Reaches` are the states that come about, with the
answers and the changes in any order.

The invariant is about one run at a time (`Senders.Stands`) : a run that waits for a further
answer holds what its matcher selects from a snapshot that the server has had. It has met
at most one exchange more than changes of the rules, and not even that if the snapshot is
outdated. Answers and changes keep the invariant (`Stands.turn`, `Stands.change`), so that a
run is delivered within two exchanges more than changes (`deliver_converges`).
-/

namespace Courier

/-- No time bounds the submissions, and the matcher decides every rule without a look at
the rule fields. -/
structure Policy.Steady (p : Policy) : Prop where
  untimed : p.timeout = none
  decides : ∀ (r : Rule) (e : Event), ∃ applies, p.matcher r e = .ok applies
  ignores : p.matcher.IgnoresRules

/-- Runs that share a client. -/
structure Senders (ι : Type) where
  client : Client
  policy : ι → Policy
  event : ι → Event

/-- The rules of the server, and what has happened to the runs. -/
structure Traffic (ι : Type) where
  /-- The snapshot that the server has. -/
  current : Snapshot
  /-- The versions that the server has had, the present one included. -/
  used : List String
  /-- The exchanges of each run in order. -/
  met : ι → List Exchange
  /-- How often the rules have changed between the first exchange of a run and its end. -/
  changes : ι → Nat

variable {ι : Type}

namespace Traffic

/-- No run has met an answer. -/
def start (s : Snapshot) : Traffic ι :=
  ⟨s, [s.version], fun _ => [], fun _ => 0⟩

/-- A run meets an exchange. -/
def turn [DecidableEq ι] (t : Traffic ι) (j : ι) (x : Exchange) : Traffic ι :=
  { t with met := fun i => if i = j then t.met i ++ [x] else t.met i }

/-- How the server answers a request with an event : with its snapshot if the event has
another version, and otherwise it takes the event or has no interest in it. -/
inductive Replies (t : Traffic ι) (e : Event) : Exchange → Prop where
  | outdated {b : Body} {d : Nat} (hv : e.rulesVersion ≠ t.current.version)
    (hb : b.Holds t.current) : Replies t e ⟨.answered ⟨412, b⟩, some d⟩
  | taken {code : Nat} {b : Body} {d : Nat} (hv : e.rulesVersion = t.current.version)
    (hc : 200 ≤ code ∧ code < 300 ∨ code = 406) : Replies t e ⟨.answered ⟨code, b⟩, some d⟩

end Traffic

namespace Senders

variable (S : Senders ι) (t : Traffic ι) (j : ι)

/-- The run that delivers an event, so far. -/
def run : Run :=
  S.client.deliver (S.policy j) (S.event j) (t.met j)

/-- The server answers the request that the run waits with, by the event in its body. -/
def Meets (x : Exchange) : Prop :=
  ∃ r e, (S.client.requests (S.run t j))[(t.met j).length]? = some r ∧
    Event.ofJson (Utf8.ofString r.body) = .ok e ∧ t.Replies e x

/-- The run has met an exchange and waits for another one. -/
def Underway : Prop :=
  0 < (t.met j).length ∧ (S.run t j).ending = .waiting

instance : Decidable (S.Underway t j) :=
  inferInstanceAs (Decidable (_ ∧ _))

/-- The server takes another snapshot. -/
def change (s : Snapshot) : Traffic ι :=
  { t with
    current := s
    used := s.version :: t.used
    changes := fun j => if S.Underway t j then t.changes j + 1 else t.changes j }

/-- The states that come about when changes of the rules and answers to requests follow
each other in any order. -/
inductive Reaches [DecidableEq ι] : Traffic ι → Prop where
  | start (s : Snapshot) : Reaches (.start s)
  | change {t : Traffic ι} {s : Snapshot} (h : Reaches t) (hs : s.version ∉ t.used) :
    Reaches (S.change t s)
  | turn {t : Traffic ι} {j : ι} {x : Exchange} (h : Reaches t) (hx : S.Meets t j x) :
    Reaches (t.turn j x)

end Senders

/-! ## One answer -/

namespace Policy

variable {p : Policy} {e : Event} {x : Exchange} {t : Traffic ι}

theorem advance_of_taken (attempt : Nat) (hp : p.Steady) (hx : t.Replies e x)
    (hv : e.rulesVersion = t.current.version) :
    ∃ d, p.advance attempt e x = .ended (.delivered d attempt e) := by
  cases hx with
  | outdated hne => exact absurd hv hne
  | @taken code b d _ hc =>
    have hin : p.InTime ⟨.answered ⟨code, b⟩, some d⟩ :=
      ⟨d, rfl, fun time ht => by simp [hp.untimed] at ht⟩
    rcases hc with ⟨hl, hu⟩ | rfl
    · exact ⟨_, advance_of_delivers hin (verdict_iff.1 (.accepted hl hu))⟩
    · exact ⟨_, advance_of_delivers hin (verdict_iff.1 .irrelevant)⟩

theorem receives_of_outdated (hp : p.Steady) (hx : t.Replies e x)
    (hv : e.rulesVersion ≠ t.current.version) : p.Receives x t.current := by
  cases hx with
  | @outdated b d _ hb => exact ⟨⟨d, rfl, fun time ht => by simp [hp.untimed] at ht⟩, b, rfl, hb⟩
  | taken heq => exact absurd heq hv

theorem advance_of_outdated (attempt : Nat) (hp : p.Steady) (hx : t.Replies e x)
    (hv : e.rulesVersion ≠ t.current.version) :
    ∃ ids, p.matcher.Selects e t.current ids ∧ p.advance attempt e x =
      if attempt < p.bound then .submitting (e.withRules t.current.version ids)
      else .ended (.failed (.notConverged p.bound t.current.version)) := by
  obtain ⟨ids, hi⟩ := exists_selects (s := t.current) fun r _ => hp.decides r e
  have hm : e.reconcile t.current p.matcher = .ok (e.withRules t.current.version ids) :=
    reconcile_eq_ok_iff.2 ⟨ids, hi, rfl⟩
  refine ⟨ids, hi, ?_⟩
  rw [advance_of_receives (receives_of_outdated hp hx hv) hm]
  rfl

end Policy

/-! ## One turn -/

namespace Senders

variable {S : Senders ι} {t : Traffic ι} {i j : ι} {x : Exchange} {e : Event}

/-- The server answers the event that the run waits with, as the body holds just that. -/
theorem meets_iff : S.Meets t j x ↔ S.client.refusal? = none ∧
    ∃ e, (S.run t j).sent[(t.met j).length]? = some e ∧ t.Replies e x := by
  constructor
  · rintro ⟨r, e', hr, he', hx⟩
    obtain ⟨hc, e, he, hbody⟩ := S.client.requests_getElem?_iff.1 ⟨r, hr, rfl⟩
    rw [← hbody, Event.ofJson_toJson] at he'
    obtain rfl := Except.ok.inj he'
    exact ⟨hc, e, he, hx⟩
  · rintro ⟨hc, e, he, hx⟩
    obtain ⟨r, hr, hbody⟩ := S.client.requests_getElem?_iff.2 ⟨hc, e, he, rfl⟩
    exact ⟨r, e, hr, hbody ▸ Event.ofJson_toJson e, hx⟩

theorem run_eq_runFrom (hc : S.client.refusal? = none) :
    S.run t j = (S.policy j).runFrom 1 (S.event j) (t.met j) := by
  rw [run, Client.deliver, Client.exchanges, hc]
  rfl

theorem ending_of_pending (hc : S.client.refusal? = none)
    (he : (S.run t j).sent[(t.met j).length]? = some e) : (S.run t j).ending = .waiting := by
  rw [run_eq_runFrom hc] at he ⊢
  have h := ((S.policy j).runFrom_append 1 (S.event j) (t.met j) [] e he).1
  rw [List.append_nil] at h
  exact h

section

variable [DecidableEq ι]

theorem met_turn_self : (t.turn j x).met j = t.met j ++ [x] :=
  if_pos rfl

theorem met_turn_of_ne (h : i ≠ j) : (t.turn j x).met i = t.met i :=
  if_neg h

/-- What an answer makes of a run that waited with the event `e`. -/
inductive Turned (S : Senders ι) (t : Traffic ι) (j : ι) (e : Event) (r : Run) : Prop where
  | delivered {d : Delivery} (hv : e.rulesVersion = t.current.version)
    (h : r.ending = .delivered d ((t.met j).length + 1) e)
  | renewed {ids : KeySet} (hv : e.rulesVersion ≠ t.current.version)
    (hi : (S.policy j).matcher.Selects e t.current ids) (hw : r.ending = .waiting)
    (he : r.sent[(t.met j).length + 1]? = some (e.withRules t.current.version ids))
  | exhausted {f : DeliverError} (hv : e.rulesVersion ≠ t.current.version)
    (h : r.ending = .failed f) (hb : (S.policy j).bound ≤ (t.met j).length + 1)

theorem Meets.turned (hp : (S.policy j).Steady) (hx : S.Meets t j x) :
    S.client.refusal? = none ∧ ∃ e, (S.run t j).sent[(t.met j).length]? = some e ∧
      S.Turned t j e (S.run (t.turn j x) j) := by
  obtain ⟨hc, e, he, hr⟩ := meets_iff.1 hx
  refine ⟨hc, e, he, ?_⟩
  rw [run_eq_runFrom hc] at he
  obtain ⟨hending, hsent⟩ := (S.policy j).runFrom_append 1 (S.event j) (t.met j) [x] e he
  have hs := hsent 1
  rw [← met_turn_self, ← run_eq_runFrom hc, Nat.add_comm 1, Policy.runFrom_cons] at hending hs
  by_cases hv : e.rulesVersion = t.current.version
  · obtain ⟨d, ha⟩ := Policy.advance_of_taken ((t.met j).length + 1) hp hr hv
    rw [ha] at hending
    exact .delivered hv hending
  · obtain ⟨ids, hi, ha⟩ := Policy.advance_of_outdated ((t.met j).length + 1) hp hr hv
    rw [ha] at hending hs
    by_cases hb : (t.met j).length + 1 < (S.policy j).bound
    · rw [if_pos hb] at hending hs
      exact .renewed hv hi hending hs
    · rw [if_neg hb] at hending
      exact .exhausted hv hending (Nat.not_lt.1 hb)

end

/-! ## The invariant -/

/-- How far a run can have come. One that waits has met at most one exchange more than
changes of the rules, and not even that if the snapshot it holds is outdated. -/
inductive Stands (S : Senders ι) (t : Traffic ι) (j : ι) : Prop where
  | fresh (h : t.met j = [])
  | waiting {s : Snapshot} {ids : KeySet} (hc : S.client.refusal? = none)
    (hw : S.Underway t j)
    (he : (S.run t j).sent[(t.met j).length]? = some ((S.event j).withRules s.version ids))
    (hi : (S.policy j).matcher.Selects (S.event j) s ids) (hu : s.version ∈ t.used)
    (hn : (t.met j).length ≤ t.changes j + 1)
    (hs : s = t.current ∨ s.version ≠ t.current.version ∧ (t.met j).length ≤ t.changes j)
  | delivered {d : Delivery} {k : Nat} {e : Event}
    (h : (S.run t j).ending = .delivered d k e) (hk : k ≤ t.changes j + 2)
  | failed {f : DeliverError} (h : (S.run t j).ending = .failed f)
    (hb : (S.policy j).bound ≤ t.changes j + 1)

/-- What the invariant says of the event that a run waits with. -/
theorem Stands.pending (h : S.Stands t j) (hc : S.client.refusal? = none)
    (he : (S.run t j).sent[(t.met j).length]? = some e) :
    (∃ v ids, e = (S.event j).withRules v ids) ∧ (t.met j).length ≤ t.changes j + 1 ∧
      (e.rulesVersion ≠ t.current.version → (t.met j).length ≤ t.changes j) := by
  have hwaiting := ending_of_pending hc he
  cases h with
  | fresh hmet =>
    rw [run_eq_runFrom hc, hmet, List.length_nil, Policy.sent_zero] at he
    obtain rfl := Option.some.inj he
    rw [hmet, List.length_nil]
    exact ⟨⟨_, _, (withRules_self _).symm⟩, Nat.zero_le _, fun _ => Nat.zero_le _⟩
  | waiting _ _ he' hi hu hn hs =>
    obtain rfl := Option.some.inj (he.symm.trans he')
    refine ⟨⟨_, _, rfl⟩, hn, fun hv => ?_⟩
    obtain rfl | ⟨-, hle⟩ := hs
    · exact absurd rfl hv
    · exact hle
  | delivered h => cases hwaiting.symm.trans h
  | failed h => cases hwaiting.symm.trans h

/-- A change of the rules outdates what the runs hold, and counts for those that wait. -/
theorem Stands.change {s : Snapshot} (h : S.Stands t j) (hs : s.version ∉ t.used) :
    S.Stands (S.change t s) j := by
  have hle : t.changes j ≤ (S.change t s).changes j := by
    show _ ≤ if S.Underway t j then t.changes j + 1 else t.changes j
    split
    · exact Nat.le_succ _
    · exact Nat.le_refl _
  cases h with
  | fresh h => exact .fresh h
  | @waiting s₀ _ hc hw he hi hu hn _ =>
    -- A version does not come back : from now on the snapshot of the run is outdated.
    have hne : s₀.version ≠ s.version := fun heq => hs (heq ▸ hu)
    have hcount : (S.change t s).changes j = t.changes j + 1 := if_pos hw
    rw [← hcount] at hn
    exact .waiting hc hw he hi (List.mem_cons_of_mem _ hu) (Nat.le_succ_of_le hn)
      (Or.inr ⟨hne, hn⟩)
  | delivered h hk => exact .delivered h (hk.trans (Nat.add_le_add_right hle 2))
  | failed h hb => exact .failed h (hb.trans (Nat.add_le_add_right hle 1))

variable [DecidableEq ι]

/-- An answer to a run keeps the invariant of it, as 412 only meets a run that holds an
outdated snapshot. -/
theorem Stands.turn (h : S.Stands t j) (hp : (S.policy j).Steady)
    (hu : t.current.version ∈ t.used) (hx : S.Meets t j x) : S.Stands (t.turn j x) j := by
  obtain ⟨hc, e, he, ht⟩ := hx.turned hp
  obtain ⟨⟨v, ids₀, rfl⟩, hn, hout⟩ := h.pending hc he
  have hlen : ((t.turn j x).met j).length = (t.met j).length + 1 := by
    rw [met_turn_self, List.length_append, List.length_singleton]
  cases ht with
  | delivered _ h => exact .delivered h (Nat.succ_le_succ hn)
  | renewed hv hi hw he' =>
    -- The event was outdated, so that the sharper bound held and one more exchange is covered.
    have hle : (t.met j).length + 1 ≤ t.changes j + 1 := Nat.succ_le_succ (hout hv)
    rw [withRules_withRules] at he'
    rw [← hlen] at he' hle
    rw [hp.ignores.selects_iff] at hi
    have hunder : S.Underway (t.turn j x) j := ⟨hlen ▸ Nat.succ_pos _, hw⟩
    exact .waiting hc hunder he' hi hu hle (Or.inl rfl)
  | exhausted hv h hb => exact .failed h (hb.trans (Nat.succ_le_succ (hout hv)))

/-- Answers to other runs do not matter. -/
theorem Stands.turn_of_ne (h : S.Stands t i) (hij : i ≠ j) : S.Stands (t.turn j x) i := by
  have hmet : (t.turn j x).met i = t.met i := met_turn_of_ne hij
  have hrun : S.run (t.turn j x) i = S.run t i := by rw [run, run, hmet]
  cases h with
  | fresh h => exact .fresh (hmet.trans h)
  | waiting hc hw he hi hu hn hs =>
    rw [← hrun, ← hmet] at he
    rw [Underway, ← hrun, ← hmet] at hw
    rw [← hmet] at hn hs
    exact .waiting hc hw he hi hu hn hs
  | delivered h hk => exact .delivered (hrun.symm ▸ h) hk
  | failed h hb => exact .failed (hrun.symm ▸ h) hb

/-- The invariant holds in every state that comes about. -/
theorem Reaches.stands (h : S.Reaches t) (hp : (S.policy j).Steady) :
    t.current.version ∈ t.used ∧ S.Stands t j := by
  induction h with
  | start s => exact ⟨List.mem_singleton_self _, .fresh rfl⟩
  | change _ hs ih => exact ⟨List.mem_cons_self, ih.2.change hs⟩
  | @turn t i x _ hx ih =>
    refine ⟨ih.1, ?_⟩
    by_cases hij : j = i
    · subst hij
      exact ih.2.turn hp ih.1 hx
    · exact ih.2.turn_of_ne hij

/-! ## Convergence -/

/-- A run that is delivered later than at its first exchange holds the rules of the server. -/
theorem Stands.upToDate {d : Delivery} {k : Nat} (h : S.Stands t j) (hp : (S.policy j).Steady)
    (hx : S.Meets t j x) (hend : (S.run (t.turn j x) j).ending = .delivered d k e) (hk : 2 ≤ k) :
    ∃ ids, (S.policy j).matcher.Selects (S.event j) t.current ids ∧
      e = (S.event j).withRules t.current.version ids := by
  obtain ⟨hc, e', he', ht⟩ := hx.turned hp
  have hwaiting := ending_of_pending hc he'
  cases ht with
  | renewed _ _ hw => cases hw.symm.trans hend
  | exhausted _ hf => cases hf.symm.trans hend
  | delivered hv hd =>
    obtain ⟨rfl, rfl, rfl⟩ := Ending.delivered.inj (hend.symm.trans hd)
    cases h with
    | delivered h => cases hwaiting.symm.trans h
    | failed h => cases hwaiting.symm.trans h
    | fresh hmet =>
      rw [hmet, List.length_nil] at hk
      omega
    | @waiting s ids _ _ he hi _ _ hs =>
      obtain rfl := Option.some.inj (he'.symm.trans he)
      obtain rfl | ⟨hne, -⟩ := hs
      · exact ⟨ids, hi, rfl⟩
      · exact absurd hv hne

/-- A run that is answered, meets at most `c` changes of the rules and may make `c + 2`
requests is delivered with one of these, or the latest of its requests is not answered yet
and is one of these, too. A run that is delivered later than with its first request carries
the version that the server has at that moment, and the ids that its matcher selects from
that very snapshot. -/
theorem deliver_converges {t : Traffic ι} (hw : S.Reaches t) (j : ι) (hp : (S.policy j).Steady) :
    (0 < (t.met j).length → ∀ c, t.changes j ≤ c → c + 2 ≤ (S.policy j).maxAttempts →
      (∃ d k e, (S.run t j).ending = .delivered d k e ∧ k ≤ c + 2) ∨
        (S.run t j).ending = .waiting ∧ (t.met j).length < c + 2 ∧
          ∃ r, (S.client.requests (S.run t j))[(t.met j).length]? = some r) ∧
      ∀ x d k e, S.Meets t j x → (S.run (t.turn j x) j).ending = .delivered d k e → 2 ≤ k →
        ∃ ids, e = (S.event j).withRules t.current.version ids ∧
          (S.policy j).matcher.Selects (S.event j) t.current ids ∧
          (S.policy j).matcher.Selects e t.current ids := by
  obtain ⟨-, hs⟩ := hw.stands hp
  constructor
  · intro hlen c hc hb
    have hbound : c + 2 ≤ (S.policy j).bound := hb.trans (Nat.le_max_left _ _)
    cases hs with
    | fresh h =>
      rw [h] at hlen
      cases hlen
    | waiting hok hunder he _ _ hn _ =>
      obtain ⟨r, hr, -⟩ := S.client.requests_getElem?_iff.2 ⟨hok, _, he, rfl⟩
      exact Or.inr ⟨hunder.2, by omega, r, hr⟩
    | @delivered d k e h hk => exact Or.inl ⟨d, k, e, h, by omega⟩
    | failed _ hle => omega
  · intro x d k e hx hend hk
    obtain ⟨ids, hi, rfl⟩ := hs.upToDate hp hx hend hk
    exact ⟨ids, rfl, hi, (hp.ignores.selects_iff _ _ ids).2 hi⟩

/-! ## A run that is overtaken -/

/-- Two runs of one event under a matcher without filters, with three requests each. -/
def pair : Senders Bool where
  client :=
    let url : Url :=
      ⟨"http".toList, some ⟨[], none, .domain ['h'], none⟩, .segments [[]], none, none⟩
    ⟨⟨url, url⟩, ⟨"u", "p", "c"⟩⟩
  policy _ := ⟨Matcher.unfiltered, 3, none⟩
  event _ := .bare "n" .unknown

/-- The snapshot of one version, whose one rule is for every object. -/
def oneRule (version : String) : Snapshot :=
  ⟨version, (∅ : Dict Rule).insert "k" ⟨"r", "n", none⟩⟩

/-- The text of that snapshot. -/
def oneRuleBody (version : String) : Body :=
  ⟨[Utf8.ofString ("\x7b\"version\":" ++ Text.quote version ++
    ",\"rules\":\x7b\"k\":\x7b\"id\":\"r\",\"name\":\"n\"\x7d\x7d\x7d")], none, false⟩

/-- The event of the runs under that snapshot. -/
def oneRuleEvent (version : String) : Event :=
  (Event.bare "n" .unknown).withRules version (KeySet.insert ∅ "r")

def refused (version : String) : Exchange :=
  ⟨.answered ⟨412, oneRuleBody version⟩, some 1⟩

def accepted : Exchange :=
  ⟨.answered ⟨204, ⟨[], none, false⟩⟩, some 1⟩

/-- Both runs have been sent the first rules, then the rules have changed, and one of the
runs has been sent the new ones. -/
def overtaken : Traffic Bool :=
  (pair.change (((Traffic.start (oneRule "1")).turn true (refused "1")).turn false (refused "1"))
    (oneRule "2")).turn true (refused "2")

theorem replies_refused {t : Traffic Bool} {version : String} {e : Event}
    (hw : t.current = oneRule version)
    (hs : Snapshot.ofJson (oneRuleBody version).received = .ok (oneRule version))
    (hl : (oneRuleBody version).received.length ≤ maxSnapshotBytes)
    (hv : e.rulesVersion ≠ version) : t.Replies e (refused version) := by
  have hb : (oneRuleBody version).Holds (oneRule version) := by
    refine ⟨?_, rfl, hs⟩
    rintro (⟨n, hn, -⟩ | hn)
    · cases hn
    · exact absurd hl (Nat.not_le.2 hn)
  rw [← hw] at hb
  refine .outdated ?_ hb
  rw [hw]
  exact hv

theorem pair_makes_requests : pair.client.refusal? = none := by
  decide +kernel

theorem reaches_overtaken : pair.Reaches overtaken := by
  have hs : ∀ version ∈ ["1", "2"],
      Snapshot.ofJson (oneRuleBody version).received = .ok (oneRule version) ∧
        (oneRuleBody version).received.length ≤ maxSnapshotBytes := by
    decide +kernel
  obtain ⟨hs₁, hl₁⟩ := hs "1" (by decide)
  obtain ⟨hs₂, hl₂⟩ := hs "2" (by decide)
  refine .turn (.change (.turn (.turn (.start _) ?_) ?_) (by decide +kernel)) ?_
  · exact meets_iff.2 ⟨pair_makes_requests, pair.event true, by decide +kernel,
      replies_refused rfl hs₁ hl₁ (by decide)⟩
  · exact meets_iff.2 ⟨pair_makes_requests, pair.event false, by decide +kernel,
      replies_refused rfl hs₁ hl₁ (by decide)⟩
  · exact meets_iff.2 ⟨pair_makes_requests, oneRuleEvent "1", by decide +kernel,
      replies_refused rfl hs₂ hl₂ (by decide)⟩

/-- The run that was overtaken once is delivered with its third request and the new rules. -/
theorem deliver_converges_overtaken :
    (∃ d k e, (pair.run (overtaken.turn true accepted) true).ending = .delivered d k e ∧
        k ≤ 1 + 2) ∧
      ∃ ids, oneRuleEvent "2" = (pair.event true).withRules "2" ids ∧
        Matcher.unfiltered.Selects (pair.event true) (oneRule "2") ids ∧
        Matcher.unfiltered.Selects (oneRuleEvent "2") (oneRule "2") ids := by
  have hp : (pair.policy true).Steady := ⟨rfl, fun _ _ => ⟨_, rfl⟩, fun _ _ _ _ => rfl⟩
  have hx : pair.Meets overtaken true accepted :=
    meets_iff.2 ⟨pair_makes_requests, oneRuleEvent "2", by decide +kernel,
      .taken rfl (Or.inl (by decide))⟩
  have hend : (pair.run (overtaken.turn true accepted) true).ending =
      .delivered .accepted 3 (oneRuleEvent "2") := by
    decide +kernel
  constructor
  · rcases (deliver_converges (reaches_overtaken.turn hx) true hp).1 (by decide) 1
      (by decide +kernel) (by decide) with h | ⟨hw, -⟩
    · exact h
    · cases hend.symm.trans hw
  · exact (deliver_converges reaches_overtaken true hp).2 _ _ _ _ hx hend (by decide)

end Senders

end Courier
