import Courier.Command.Send
import Courier.Proofs.Command.Fields
import Courier.Proofs.Event.RoundTrip
import Courier.Proofs.Exchange.Visit
import Courier.Proofs.Steps
import Courier.Proofs.Store.Connection

/-!
# What sending an event does

A command that sends an event prepares for that first (`Prepares`), and what is wrong there
(`Flawed`) ends it before it does anything. Then its run, which is the same in every order of the
rules (`deliverIn_eq_run`), makes requests and nothing else, and all further effects follow a
delivery : three lines, and the row of the event that was delivered, if it is to be recorded and
nothing is in the way (`Recording`). `Proceeds` says so for the effects as a whole, and `send` keeps
to that (`send_proceeds`).
-/

namespace Courier.Command

variable {w : World} {configs : List String} {request : SendRequest} {recording : Bool}
  {p : Preparation}

/-! ## Preparing -/

/-- What a delivery needs comes from the files, the environment and the fields of the event. -/
structure Prepares (w : World) (configs : List String) (request : SendRequest) (p : Preparation) :
    Prop where
  settings : ∃ config, Config.ofPaths w.file configs = .ok config ∧
    Settings.resolve config.value w.env = .ok p.settings
  event : request.toEvent = .ok p.event
  endpoint : Endpoint.ofBase p.settings.url = .ok p.client.endpoint
  credentials : p.client.credentials = p.settings.credentials

/-- Something is wrong before the delivery. -/
inductive Flawed (w : World) (configs : List String) (request : SendRequest) : Prop
  | unloaded {e : LoadError} (h : Config.ofPaths w.file configs = .error e)
  | unresolved {config : Config} {e : SettingsError}
    (h : Config.ofPaths w.file configs = .ok config)
    (hsettings : Settings.resolve config.value w.env = .error e)
  | malformed {tag : String} (h : tag ∈ request.tags) (htag : Malformed tag)
  | unmuted (h : request.mute = none) (hreason : request.muteReason ≠ "")
  | refused {config : Config} {settings : Settings} {e : EndpointError}
    (h : Config.ofPaths w.file configs = .ok config)
    (hsettings : Settings.resolve config.value w.env = .ok settings)
    (haddress : Endpoint.ofBase settings.url = .error e)

theorem prepare_eq_ok_iff : prepare w configs request = .ok p ↔ Prepares w configs request p := by
  simp only [prepare, bind_eq_ok_iff, mapError_eq_ok_iff, pure, Except.pure, Except.ok.injEq]
  constructor
  · rintro ⟨config, hconfig, settings, hsettings, event, hevent, endpoint, hendpoint, rfl⟩
    exact ⟨⟨config, hconfig, hsettings⟩, hevent, hendpoint, rfl⟩
  · rintro ⟨⟨config, hconfig, hsettings⟩, hevent, hendpoint, hcredentials⟩
    exact ⟨config, hconfig, _, hsettings, _, hevent, _, hendpoint, by rw [← hcredentials]⟩

theorem Flawed.not_prepares (h : Flawed w configs request) (p : Preparation) :
    ¬Prepares w configs request p := by
  rintro ⟨⟨config, hconfig, hsettings⟩, hevent, hendpoint, -⟩
  have hfields : ¬∃ reason, request.toEvent = .error reason := by simp [hevent]
  rw [SendRequest.toEvent_eq_error_iff, not_or] at hfields
  cases h with
  | unloaded h => cases hconfig.symm.trans h
  | unresolved h h' =>
    obtain rfl := Except.ok.inj (hconfig.symm.trans h)
    cases hsettings.symm.trans h'
  | malformed h htag => exact hfields.1 ⟨_, h, htag⟩
  | unmuted h hreason => exact hfields.2 ⟨h, hreason⟩
  | refused h h' haddress =>
    obtain rfl := Except.ok.inj (hconfig.symm.trans h)
    obtain rfl := Except.ok.inj (hsettings.symm.trans h')
    cases hendpoint.symm.trans haddress

/-- Nothing but a flaw keeps a command from preparing. -/
theorem exists_prepares_of_not_flawed (h : ¬Flawed w configs request) :
    ∃ p, Prepares w configs request p := by
  cases hconfig : Config.ofPaths w.file configs with
  | error e => exact absurd (.unloaded hconfig) h
  | ok config =>
    cases hsettings : Settings.resolve config.value w.env with
    | error e => exact absurd (.unresolved hconfig hsettings) h
    | ok settings =>
      cases hevent : request.toEvent with
      | error e =>
        rcases SendRequest.toEvent_eq_error_iff.1 ⟨e, hevent⟩ with ⟨tag, hmem, htag⟩ | ⟨hmute, hne⟩
        · exact absurd (.malformed hmem htag) h
        · exact absurd (.unmuted hmute hne) h
      | ok event =>
        cases hendpoint : Endpoint.ofBase settings.url with
        | error e => exact absurd (.refused hconfig hsettings hendpoint) h
        | ok endpoint =>
          exact ⟨⟨settings, event, endpoint, settings.credentials⟩, ⟨config, hconfig, hsettings⟩,
            hevent, hendpoint, rfl⟩

/-- The run of a command is the same in whatever order the rules of a snapshot are visited. -/
theorem deliverIn_eq_run (p : Preparation) (w : World) (v : Visit) :
    p.settings.policy.deliverIn v p.event
        (p.client.exchanges (w.exchanges p.client.endpoint.processEvent)) = p.run w :=
  Policy.deliverIn_of_decides (fun r _ => ⟨r.objectFilter.isNone, rfl⟩) v _ _

/-! ## Recording -/

/-- What comes of recording an event after its delivery, and how the command ends. -/
inductive Recording (w : World) (e : Event) : List Effect → Conclusion → Prop
  | unreachable {reason : Store.ConnectError} (h : Store.connect w.env w.reach = .error reason) :
    Recording w e [] (.failed ⟨reason.message, reason.reasons⟩)
  | refused {d : Store.Database} {reason : Store.StatementError}
    (h : Store.connect w.env w.reach = .ok d)
    (hinsert : d.insert w.newId w.now w.now e = .error reason) :
    Recording w e [] (.failed ⟨Store.insertMessage w.newId, statementReasons reason⟩)
  /-- One row is added, which holds the event, and no other id is touched. -/
  | recorded {d d' : Store.Database} {row : Store.Row} (h : Store.connect w.env w.reach = .ok d)
    (hinsert : d.insert w.newId w.now w.now e = .ok d')
    (hrow : row.toStored = .ok ⟨w.newId, w.now, w.now, e⟩)
    (hself : d'.fetch w.newId = .ok (some ⟨w.newId, w.now, w.now, e⟩))
    (hothers : ∀ id ≠ w.newId, d'.fetch id = d.fetch id) :
    Recording w e [.record row, .print ("event_id=" ++ w.newId.text)] .done

theorem recording_reportRecord (w : World) (e : Event) :
    Recording w e (reportRecord w e).effects (reportRecord w e).conclusion := by
  unfold reportRecord record
  cases hconnect : Store.connect w.env w.reach with
  | error reason => exact .unreachable hconnect
  | ok d =>
    simp only [Except.mapError, bind, Except.bind]
    cases hinsert : d.insert w.newId w.now w.now e with
    | error reason => exact .refused hconnect hinsert
    | ok d' =>
      obtain ⟨hself, hothers⟩ := Store.Database.fetch_insert hinsert
      exact .recorded hconnect hinsert (Store.Row.Keeps.refl _).toStored hself hothers

/-! ## The whole command -/

/-- What a command that sends an event does, and how it ends. -/
structure Proceeds (w : World) (configs : List String) (request : SendRequest) (recording : Bool)
    (r : Report) : Prop where
  /-- A flaw ends the command before it does anything. -/
  flawed : Flawed w configs request → r.effects = [] ∧ ∃ f, r.conclusion = .failed f
  /-- There is nothing else that could be wrong before the delivery. -/
  prepared : ¬Flawed w configs request → ∃ p, Prepares w configs request p
  /-- Without a delivery there are the requests of the run only, and no success. -/
  undelivered : ∀ p, Prepares w configs request p →
    (∀ d k e, (p.run w).ending ≠ .delivered d k e) →
    r.effects = (p.client.requests (p.run w)).map .request ∧ r.conclusion ≠ .done
  /-- A delivery is reported after the requests as what the last exchange made of the event that
  the last request carried, and that event is recorded. -/
  delivered : ∀ p d k e, Prepares w configs request p → (p.run w).ending = .delivered d k e →
    ∃ front last x rest, p.client.requests (p.run w) = front ++ [last] ∧
      (w.exchanges p.client.endpoint.processEvent)[front.length]? = some x ∧
      p.settings.policy.Result x (.ok d) ∧ Event.ofJson (Utf8.ofString last.body) = .ok e ∧
      r.effects = (front ++ [last]).map .request ++
        ([.print ("delivery=" ++ deliveryWord d),
          .print ("attempts=" ++ toString (front.length + 1)),
          .print ("rules_version=" ++ e.rulesVersion)] ++ rest) ∧
      if recording then Recording w e rest r.conclusion else rest = [] ∧ r.conclusion = .done

theorem send_of_prepares (h : Prepares w configs request p) :
    send w configs request recording =
      (reportEnding w recording (p.run w).ending).after
        ((p.client.requests (p.run w)).map .request) := by
  rw [send, prepare_eq_ok_iff.2 h]

theorem send_of_flawed (h : Flawed w configs request) :
    ∃ f, send w configs request recording = .ending (.failed f) := by
  cases hprepare : prepare w configs request with
  | error f => exact ⟨f, by rw [send, hprepare]⟩
  | ok p => exact absurd (prepare_eq_ok_iff.1 hprepare) (h.not_prepares p)

/-- The last request of a run that ends in a delivery, and its exchange. -/
theorem exists_last_request {d : Delivery} {k : Nat} {e : Event}
    (h : (p.run w).ending = .delivered d k e) :
    ∃ front last x, p.client.requests (p.run w) = front ++ [last] ∧ k = front.length + 1 ∧
      (w.exchanges p.client.endpoint.processEvent)[front.length]? = some x ∧
      p.settings.policy.Result x (.ok d) ∧ Event.ofJson (Utf8.ofString last.body) = .ok e := by
  obtain ⟨i, rfl, -, hlen, -, ⟨x, hx, hresult⟩, last, hlast, hbody⟩ :=
    p.client.requests_of_delivered h
  have hmakes : p.client.refusal? = none :=
    p.client.refusal?_eq_none_of_result hx hresult (by simp) (by simp)
  rw [Client.exchanges, hmakes] at hx
  have hsplit : p.client.requests (p.run w) = (p.client.requests (p.run w)).take i ++ [last] :=
    calc p.client.requests (p.run w)
      _ = (p.client.requests (p.run w)).take (i + 1) := (List.take_of_length_le hlen.le).symm
      _ = (p.client.requests (p.run w)).take i ++ [last] := by
        rw [List.take_add_one]
        exact congrArg (fun l => _ ++ l.toList) hlast
  have hfront : ((p.client.requests (p.run w)).take i).length = i :=
    List.length_take_of_le (i.le_succ.trans hlen.ge)
  refine ⟨_, last, x, hsplit, by rw [hfront], by rwa [hfront], hresult, ?_⟩
  rw [hbody, Event.ofJson_toJson]

/-- The effects of the command as a whole. -/
theorem send_proceeds (w : World) (configs : List String) (request : SendRequest)
    (recording : Bool) :
    Proceeds w configs request recording (send w configs request recording) where
  flawed h := by
    obtain ⟨f, hf⟩ := @send_of_flawed w configs request recording h
    rw [hf]
    exact ⟨rfl, f, rfl⟩
  prepared h := exists_prepares_of_not_flawed h
  undelivered p hp h := by
    rw [send_of_prepares hp]
    cases hending : (p.run w).ending with
    | delivered d k e => exact absurd hending (h d k e)
    | failed e => exact ⟨List.append_nil _, fun hc => by cases hc⟩
    | waiting => exact ⟨List.append_nil _, fun hc => by cases hc⟩
  delivered p d k e hp h := by
    obtain ⟨front, last, x, hrequests, rfl, hx, hresult, hbody⟩ := exists_last_request h
    rw [send_of_prepares hp, h, hrequests]
    cases recording with
    | false => exact ⟨front, last, x, [], rfl, hx, hresult, hbody, rfl, rfl, rfl⟩
    | true =>
      exact ⟨front, last, x, _, rfl, hx, hresult, hbody, rfl, recording_reportRecord w e⟩

end Courier.Command
