import Courier.Command.Send
import Courier.Proofs.Config.Settings

/-!
# What the password does

Environments that differ in the password only (`SameButPassword`) resolve to settings that differ
in it only and show the same, or to the same error (`resolve_alike`). What a client sends and how
its run goes depends on the password in one place, the value of the authorization header
(`requests_withPassword`). So a command that sends an event does the same in both environments but
for that value, and ends the same (`send_hides_password`).
-/

namespace Courier

/-! ## Settings -/

namespace Settings

open Json (Value)

/-- A variable has a value that can be a password. -/
def Given (value : Option String) : Prop :=
  ∃ s, value = some s ∧ Text.isBlankText s = false

/-- The environments differ in the value of the password only, and in both of them there is one or
in both there is none. -/
structure SameButPassword (config : Value) (env env' : String → Option String) : Prop where
  others : ∀ name ≠ passwordVariable config, env name = env' name
  given : Given (env (passwordVariable config)) ↔ Given (env' (passwordVariable config))

/-- Both fail with one error, or the settings differ in the password only and logs do not show
it. -/
inductive Alike : Except SettingsError Settings → Except SettingsError Settings → Prop
  | failed (e : SettingsError) : Alike (.error e) (.error e)
  | resolved (s : Settings) (password : String)
    (hsettings : { s with password }.describe = s.describe)
    (hcredentials : { s with password }.credentials.describe = s.credentials.describe) :
    Alike (.ok s) (.ok { s with password })

theorem password?_eq_none_iff {value : Option String} : password? value = none ↔ ¬Given value := by
  cases value <;> simp [password?, Given, Option.filter_eq_none_iff]

variable {config : Value} {env env' : String → Option String}

theorem complete_alike (url username : String) {value value' : Option String}
    (h : Given value ↔ Given value') :
    Alike (complete config url username value) (complete config url username value') := by
  have hnone : password? value = none ↔ password? value' = none := by
    rw [password?_eq_none_iff, password?_eq_none_iff, h]
  unfold complete
  cases hvalue : password? value with
  | none =>
    rw [hnone.1 hvalue]
    exact .failed _
  | some password =>
    obtain ⟨password', hvalue'⟩ := Option.ne_none_iff_exists'.1 fun h => by
      cases hvalue.symm.trans (hnone.2 h)
    rw [hvalue']
    dsimp only
    cases attempts config with
    | error e => exact .failed e
    | ok maxAttempts =>
      cases deadline config with
      | error e => exact .failed e
      | ok timeout => exact .resolved _ password' rfl rfl

/-- The password decides neither whether settings are resolved nor what else is in them. -/
theorem resolve_alike (h : SameButPassword config env env') :
    Alike (resolve config env) (resolve config env') := by
  unfold resolve resolveWith
  cases text? config "url" with
  | none => exact .failed _
  | some url =>
    cases text? config "username" with
    | none => exact .failed _
    | some username => exact complete_alike url username h.given

end Settings

/-! ## Requests -/

/-- The request without the value of the authorization header. -/
def Request.unsigned (r : Request) : Request :=
  { r with headers := r.headers.map fun h => if h.1 = "authorization" then (h.1, "") else h }

namespace Client

variable (c : Client)

/-- The client with another password. -/
def withPassword (password : String) : Client :=
  { c with credentials := { c.credentials with password } }

theorem request?_withPassword (password : String) (e : Event) :
    ((c.withPassword password).request? e).map Request.unsigned =
      (c.request? e).map Request.unsigned := by
  have hrefusal : (c.withPassword password).refusal? = c.refusal? := rfl
  have hagent : (c.withPassword password).credentials.userAgent = c.credentials.userAgent := rfl
  unfold request?
  rw [hrefusal]
  cases c.refusal? with
  | some e => rfl
  | none =>
    simp only [Credentials.sign?, hagent]
    split
    · simp [Request.unsigned, withPassword]
    · rfl

/-- The requests of a run are the same under another password, up to the authorization header. -/
theorem requests_withPassword (password : String) (run : Run) :
    ((c.withPassword password).requests run).map Request.unsigned =
      (c.requests run).map Request.unsigned := by
  simp only [requests, List.map_filterMap, request?_withPassword]

end Client

/-! ## The command -/

namespace Command

open Json (Value)

/-- What a command does, without the value of the authorization header. -/
def Effect.unsigned : Effect → Effect
  | .request r => .request r.unsigned
  | e => e

/-- The commands do and print the same up to the authorization header, and end the same. -/
structure Report.Alike (r r' : Report) : Prop where
  effects : r.effects.map Effect.unsigned = r'.effects.map Effect.unsigned
  printed : r.printed = r'.printed
  conclusion : r.conclusion = r'.conclusion

/-- What is printed does not depend on the authorization header. -/
theorem printed_of_effects {r r' : Report}
    (h : r.effects.map Effect.unsigned = r'.effects.map Effect.unsigned) :
    r.printed = r'.printed := by
  have hprinted (r : Report) :
      r.printed = (r.effects.map Effect.unsigned).filterMap (·.printed?) := by
    rw [Report.printed, List.filterMap_map]
    congr 1
    funext e
    cases e <;> rfl
  rw [hprinted, h, ← hprinted]

/-- What is prepared, with another password. -/
def Preparation.withPassword (p : Preparation) (password : String) : Preparation :=
  { p with settings := { p.settings with password }, client := p.client.withPassword password }

variable {config : Value} {env env' : String → Option String} {w : World} {configs : List String}

theorem prepare_alike (h : Settings.SameButPassword config env env')
    (hconfig : ∀ c, Config.ofPaths w.file configs = .ok c → c.value = config)
    (request : SendRequest) :
    (∃ f, prepare { w with env } configs request = .error f ∧
      prepare { w with env := env' } configs request = .error f) ∨
    ∃ p password, prepare { w with env } configs request = .ok p ∧
      prepare { w with env := env' } configs request = .ok (p.withPassword password) := by
  have halike := Settings.resolve_alike h
  unfold prepare
  dsimp only
  cases hc : Config.ofPaths w.file configs with
  | error e => exact .inl ⟨_, rfl, rfl⟩
  | ok c =>
    obtain rfl := hconfig c hc
    simp only [Except.mapError, bind, Except.bind]
    generalize Settings.resolve c.value env = x at halike
    generalize Settings.resolve c.value env' = x' at halike
    cases halike with
    | failed e => exact .inl ⟨_, rfl, rfl⟩
    | resolved s password _ _ =>
      dsimp only
      cases request.toEvent with
      | error e => exact .inl ⟨_, rfl, rfl⟩
      | ok e =>
        dsimp only
        cases Endpoint.ofBase s.url with
        | error e => exact .inl ⟨_, rfl, rfl⟩
        | ok endpoint => exact .inr ⟨_, password, rfl, rfl⟩

theorem unsigned_requests (requests : List Request) :
    (requests.map Effect.request).map Effect.unsigned =
      (requests.map Request.unsigned).map Effect.request := by
  rw [List.map_map, List.map_map]
  rfl

/-- A command that sends an event and does not record it does the same with another password, but
for the value of the authorization header. -/
theorem send_alike (h : Settings.SameButPassword config env env')
    (hconfig : ∀ c, Config.ofPaths w.file configs = .ok c → c.value = config)
    (request : SendRequest) :
    (send { w with env } configs request false).Alike
      (send { w with env := env' } configs request false) := by
  rcases prepare_alike h hconfig request with ⟨f, hf, hf'⟩ | ⟨p, password, hp, hp'⟩
  · unfold send
    rw [hf, hf']
    exact ⟨rfl, rfl, rfl⟩
  · have hrun : (p.withPassword password).run { w with env := env' } = p.run { w with env } := rfl
    have hending (ending : Ending) : reportEnding { w with env } false ending =
        reportEnding { w with env := env' } false ending := by
      cases ending <;> rfl
    have hrequests := p.client.requests_withPassword password (p.run { w with env })
    have heffects : (send { w with env } configs request false).effects.map Effect.unsigned =
        (send { w with env := env' } configs request false).effects.map Effect.unsigned := by
      unfold send
      rw [hp, hp']
      simp only [Report.after, List.map_append, unsigned_requests, hrun, hending]
      exact congrArg (fun requests => requests.map Effect.request ++ _) hrequests.symm
    refine ⟨heffects, printed_of_effects heffects, ?_⟩
    unfold send
    rw [hp, hp']
    simp only [Report.after, hrun, hending]

/-- The password influences nothing but the authorization header. In environments that differ in
it only, settings are resolved to the same but for the password, or fail with the same error; and a
command that sends an event and does not record it makes the same requests up to that header,
prints the same and ends the same. -/
theorem send_hides_password (h : Settings.SameButPassword config env env') :
    Settings.Alike (Settings.resolve config env) (Settings.resolve config env') ∧
    ∀ (w : World) (configs : List String) (request : SendRequest),
      (∀ c, Config.ofPaths w.file configs = .ok c → c.value = config) →
        (send { w with env } configs request false).Alike
          (send { w with env := env' } configs request false) :=
  ⟨Settings.resolve_alike h, fun _ _ request hconfig => send_alike h hconfig request⟩

/-- Two passwords in a variable that the configuration names. -/
theorem send_hides_password_named :
    let config : Value := .obj [("notifications", .obj [("password_env", .str " SECRET"),
      ("url", .str "http://h/"), ("username", .str "u")])]
    let env (password name : String) : Option String :=
      if name = "SECRET" then some password else none
    Settings.resolve config (env "a") = .ok ⟨"http://h/", "u", "a", "nfy", 3, none⟩ ∧
      Settings.Alike (Settings.resolve config (env "a")) (Settings.resolve config (env "b")) ∧
      ∀ (w : World) (configs : List String) (request : SendRequest),
        (∀ c, Config.ofPaths w.file configs = .ok c → c.value = config) →
          (send { w with env := env "a" } configs request false).Alike
            (send { w with env := env "b" } configs request false) := by
  intro config env
  have hvariable : Settings.passwordVariable config = "SECRET" := by decide
  have h : Settings.SameButPassword config (env "a") (env "b") := by
    refine ⟨fun name hname => ?_, ?_⟩
    · rw [hvariable] at hname
      simp only [env, if_neg hname]
    · rw [hvariable]
      exact iff_of_true ⟨"a", rfl, rfl⟩ ⟨"b", rfl, rfl⟩
  exact ⟨rfl, send_hides_password h⟩

end Command

end Courier
