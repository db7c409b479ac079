import Courier.Proofs.Config.Settings
import Courier.Proofs.Steps
import Courier.Proofs.Text.Blank
import Mathlib.Algebra.Group.Nat.Defs

/-!
# Which settings a configuration has

Five things are checked, in order : that there is an address, a user and a password, and that the
number of attempts and the deadline are left open or within their bounds (`Check`, `Passes`). If
all of them pass, the configuration has the settings that `Resolved` describes by what stands where,
and no others; else the first that does not pass is reported (`Reports`). The variable of the
password is looked up once there are an address and a user, and nothing else is
(`resolve_exact`).
-/

namespace Courier.Settings

open Json (Value)
open Text (isBlank Trims)

/-! ## What stands where -/

/-- The value stands under a name in the section for the client. -/
def At (config : Value) (name : String) (v : Value) : Prop :=
  ∃ ms ns, config = .obj ms ∧ Entries.get? "notifications" ms = some (.obj ns) ∧
    Entries.get? name ns = some v

/-- Nothing stands under a name, or `null`. -/
def Vacant (config : Value) (name : String) : Prop :=
  ∀ v, At config name v → v = .null

/-- An integer from one to below the bound stands under a name. -/
def CountAt (config : Value) (name : String) (bound n : Nat) : Prop :=
  At config name (.num (.int n)) ∧ 1 ≤ n ∧ n < bound

/-- Not all of a text is blank. -/
def NotBlank (s : String) : Prop :=
  ∃ c ∈ s.toList, isBlank c = false

/-- A text that is not blank stands under a name. -/
def HasText (config : Value) (name : String) : Prop :=
  ∃ raw, At config name (.str raw) ∧ NotBlank raw

/-- The text stands under a name, with or without blanks around it. -/
def TextAt (config : Value) (name s : String) : Prop :=
  ∃ raw, At config name (.str raw) ∧ NotBlank raw ∧ Trims raw.toList s.toList

/-- The text does, or no text that is not blank stands there and it is the default. -/
def TextOr (config : Value) (name default s : String) : Prop :=
  TextAt config name s ∨ (¬HasText config name ∧ s = default)

/-- A text is not empty and has no blanks around it. -/
structure Tidy (s : String) : Prop where
  ne_empty : s ≠ ""
  head (c : Char) : s.toList.head? = some c → isBlank c = false
  last (c : Char) : s.toList.getLast? = some c → isBlank c = false

/-! ## The specification -/

/-- What has to be in order for settings. -/
inductive Check where
  | url | username | password | attempts | deadline

/-- The checks in the order in which they are made. -/
def Check.all : List Check :=
  [.url, .username, .password, .attempts, .deadline]

section

variable (config : Value) (env : String → Option String)

/-- What a check asks for. -/
def Passes : Check → Prop
  | .url => HasText config "url"
  | .username => HasText config "username"
  | .password => ∃ name value, TextOr config "password_env" "NFY_PASSWORD" name ∧
      env name = some value ∧ NotBlank value
  | .attempts => Vacant config "max_attempts" ∨ ∃ n, CountAt config "max_attempts" (2 ^ 32) n
  | .deadline => Vacant config "timeout_secs" ∨ ∃ n, CountAt config "timeout_secs" (2 ^ 64) n

/-- The error that reports a check. -/
def Reports (e : SettingsError) : Check → Prop
  | .url => e = .missing "url"
  | .username => e = .missing "username"
  | .password => ∃ name, TextOr config "password_env" "NFY_PASSWORD" name ∧ e = .noPassword name
  | .attempts => ∃ v, At config "max_attempts" v ∧ e = .badAttempts v
  | .deadline => ∃ v, At config "timeout_secs" v ∧ e = .badTimeout v

/-- The settings of a configuration in an environment. Texts are trimmed, except for the
password. -/
structure Resolved (s : Settings) : Prop where
  url : TextAt config "url" s.url
  username : TextAt config "username" s.username
  password : ∃ name, TextOr config "password_env" "NFY_PASSWORD" name ∧
    env name = some s.password ∧ NotBlank s.password
  clientName : TextOr config "client_name" "nfy" s.clientName
  maxAttempts : (Vacant config "max_attempts" ∧ s.maxAttempts = 3) ∨
    CountAt config "max_attempts" (2 ^ 32) s.maxAttempts
  timeout : (Vacant config "timeout_secs" ∧ s.timeout = none) ∨
    ∃ n, CountAt config "timeout_secs" (2 ^ 64) n ∧ s.timeout = some n

end

/-! ## Reading a setting -/

/-- A key that spells no number leads to a member of an object. -/
theorem child?_eq_some_iff {k : String} (hk : Json.Pointer.index? k.toList = none) {v w : Value} :
    v.child? k = some w ↔ ∃ ms, v = .obj ms ∧ Entries.get? k ms = some w := by
  cases v <;> simp [Value.child?, hk]

variable {config v : Value} {env : String → Option String} {name s : String}

theorem setting?_eq_some_iff (hname : name ∈ settingNames) :
    setting? config name = some v ↔ At config name v := by
  have hkeys : ∀ k ∈ "notifications" :: settingNames, Json.Pointer.index? k.toList = none := by
    decide +kernel
  have hsection := fun w => @child?_eq_some_iff _ (hkeys "notifications" (by simp)) config w
  have hmember := fun u w => @child?_eq_some_iff _ (hkeys name (by simp [hname])) u w
  rw [setting?, Value.pointer?, toPath?_setting name hname]
  simp only [Option.bind_some, Value.descend?, Option.bind_eq_some_iff, hsection, hmember]
  constructor
  · rintro ⟨_, ⟨ms, rfl, hms⟩, _, ⟨ns, rfl, hns⟩, hv⟩
    exact ⟨ms, ns, rfl, hms, hv ▸ hns⟩
  · rintro ⟨ms, ns, rfl, hms, hns⟩
    exact ⟨_, ⟨ms, rfl, hms⟩, _, ⟨ns, rfl, hns⟩, rfl⟩

/-- One value stands under a name. -/
theorem At.unique {w : Value} (hv : At config name v) (hw : At config name w) : v = w := by
  obtain ⟨ms, ns, rfl, hms, hv⟩ := hv
  obtain ⟨_, ns', heq, hms', hw⟩ := hw
  obtain rfl := Value.obj.inj heq
  obtain rfl := Value.obj.inj (Option.some.inj (hms.symm.trans hms'))
  exact Option.some.inj (hv.symm.trans hw)

theorem isBlankText_eq_false_iff : Text.isBlankText s = false ↔ NotBlank s := by
  simp [Text.isBlankText, NotBlank]

theorem text?_eq_some_iff (hname : name ∈ settingNames) :
    text? config name = some s ↔ TextAt config name s := by
  have htext : ∀ v raw, Value.asText? v = some raw ↔ v = .str raw := by
    intro v raw
    cases v <;> simp [Value.asText?]
  have htrim : ∀ raw, (if Text.isBlankText raw then none else some (Text.trim raw)) = some s ↔
      NotBlank raw ∧ Trims raw.toList s.toList := by
    intro raw
    rw [← isBlankText_eq_false_iff, ← Text.trim_eq_iff]
    cases Text.isBlankText raw <;> simp
  simp only [text?, Option.bind_eq_some_iff, setting?_eq_some_iff hname, htext, htrim]
  constructor
  · rintro ⟨raw, ⟨_, hat, rfl⟩, hraw⟩
    exact ⟨raw, hat, hraw⟩
  · rintro ⟨raw, hat, hraw⟩
    exact ⟨raw, ⟨_, hat, rfl⟩, hraw⟩

theorem exists_textAt_iff : (∃ s, TextAt config name s) ↔ HasText config name := by
  constructor
  · rintro ⟨s, raw, hat, hraw, -⟩
    exact ⟨raw, hat, hraw⟩
  · rintro ⟨raw, hat, hraw⟩
    exact ⟨Text.trim raw, raw, hat, hraw, Text.trim_eq_iff.1 rfl⟩

theorem text?_eq_none_iff (hname : name ∈ settingNames) :
    text? config name = none ↔ ¬HasText config name := by
  rw [← exists_textAt_iff, not_exists]
  simp only [← text?_eq_some_iff hname, Option.eq_none_iff_forall_ne_some, ne_eq]

theorem getD_text?_eq_iff (hname : name ∈ settingNames) {default : String} :
    (text? config name).getD default = s ↔ TextOr config name default s := by
  rw [TextOr, ← text?_eq_some_iff hname, ← text?_eq_none_iff hname]
  cases text? config name <;> simp [eq_comm]

theorem password?_eq_some_iff {value : Option String} :
    password? value = some s ↔ value = some s ∧ NotBlank s := by
  simp [password?, Option.filter_eq_some_iff, isBlankText_eq_false_iff]

/-! ## Reading a count -/

theorem asNatural?_eq_some_iff {n : Nat} :
    v.asNatural? = some n ↔ v = .num (.int n) ∧ n < 2 ^ 64 := by
  have hint : ∀ i : Int, (if 0 ≤ i ∧ i < Json.wordBound then some i.toNat else none) = some n ↔
      i = n ∧ n < 2 ^ 64 := by
    intro i
    rw [Option.ite_none_right_eq_some, Option.some.injEq, Json.wordBound]
    omega
  cases v with
  | num m =>
    cases m with
    | int i => simp only [Value.asNatural?, hint, Value.num.injEq, Json.Number.int.injEq]
    | double d => simp [Value.asNatural?]
  | _ => simp [Value.asNatural?]

/-- A setting that is left open, or an integer from one to below a bound. -/
def count (config : Value) (name : String) (bound : Nat) (fault : Value → SettingsError) :
    Except SettingsError (Option Nat) :=
  match setting? config name with
  | none | some .null => .ok none
  | some v =>
    match v.asNatural? with
    | some n => if 1 ≤ n ∧ n < bound then .ok (some n) else .error (fault v)
    | none => .error (fault v)

theorem attempts_eq_count (config : Value) : attempts config =
    (count config "max_attempts" (2 ^ 32) .badAttempts).map fun n? => n?.getD 3 := by
  have hbound : 2 ^ 32 = attemptsBound := rfl
  rw [hbound]
  unfold attempts count
  cases setting? config "max_attempts" with
  | none => rfl
  | some v =>
    by_cases hnull : v = .null
    · rw [hnull]
      rfl
    · cases hn : v.asNatural? with
      | none => simp only [hn, Except.map]
      | some n =>
        by_cases hrange : 1 ≤ n ∧ n < attemptsBound
        · simp only [hn, if_pos hrange, Except.map, Option.getD_some]
        · simp only [hn, if_neg hrange, Except.map]

theorem deadline_eq_count (config : Value) :
    deadline config = count config "timeout_secs" (2 ^ 64) .badTimeout := by
  unfold deadline count
  cases setting? config "timeout_secs" with
  | none => rfl
  | some v =>
    by_cases hnull : v = .null
    · rw [hnull]
    · cases hn : v.asNatural? with
      | none => simp [hn]
      | some n =>
        have hbound : (1 ≤ n ∧ n < 2 ^ 64) ↔ 0 < n := by
          have hn := (asNatural?_eq_some_iff.1 hn).2
          omega
        simp only [hn, hbound]

section

variable {bound : Nat} {fault : Value → SettingsError}

theorem count_eq_ok_iff (hname : name ∈ settingNames) (hbound : bound ≤ 2 ^ 64)
    {n? : Option Nat} : count config name bound fault = .ok n? ↔
      (Vacant config name ∧ n? = none) ∨ ∃ n, CountAt config name bound n ∧ n? = some n := by
  simp only [Vacant, CountAt, ← setting?_eq_some_iff hname]
  unfold count
  cases setting? config name with
  | none => simp [eq_comm]
  | some v =>
    by_cases hnull : v = .null
    · simp [hnull, eq_comm]
    · simp only [Option.some.injEq, forall_eq', hnull, false_and, false_or]
      constructor
      · intro h
        cases hn : v.asNatural? with
        | none => simp [hn] at h
        | some n =>
          by_cases hrange : 1 ≤ n ∧ n < bound
          · simp only [hn, if_pos hrange, Except.ok.injEq] at h
            exact ⟨n, ⟨(asNatural?_eq_some_iff.1 hn).1, hrange⟩, h.symm⟩
          · simp [hn, hrange] at h
      · rintro ⟨n, ⟨hv, hrange⟩, rfl⟩
        have hn : v.asNatural? = some n := asNatural?_eq_some_iff.2 ⟨hv, by omega⟩
        simp only [hn, if_pos hrange]

theorem of_count_eq_error (hname : name ∈ settingNames) {e : SettingsError}
    (h : count config name bound fault = .error e) : ∃ v, At config name v ∧ e = fault v := by
  unfold count at h
  split at h
  · cases h
  · cases h
  · next v _ hv =>
    refine ⟨v, (setting?_eq_some_iff hname).1 hv, ?_⟩
    cases hn : v.asNatural? with
    | none => simpa [hn, eq_comm] using h
    | some n =>
      by_cases hrange : 1 ≤ n ∧ n < bound
      · simp [hn, hrange] at h
      · simpa [hn, hrange, eq_comm] using h

end

theorem attempts_eq_ok_iff {n : Nat} : attempts config = .ok n ↔
    (Vacant config "max_attempts" ∧ n = 3) ∨ CountAt config "max_attempts" (2 ^ 32) n := by
  have hbound : 2 ^ 32 ≤ 2 ^ 64 := by decide
  rw [attempts_eq_count, map_eq_ok_iff]
  simp only [count_eq_ok_iff (by decide : "max_attempts" ∈ settingNames) hbound]
  constructor
  · rintro ⟨_, ⟨hvacant, rfl⟩ | ⟨n, hn, rfl⟩, rfl⟩
    · exact .inl ⟨hvacant, rfl⟩
    · exact .inr hn
  · rintro (⟨hvacant, rfl⟩ | hn)
    · exact ⟨none, .inl ⟨hvacant, rfl⟩, rfl⟩
    · exact ⟨some n, .inr ⟨n, hn, rfl⟩, rfl⟩

theorem deadline_eq_ok_iff {timeout : Option Nat} : deadline config = .ok timeout ↔
    (Vacant config "timeout_secs" ∧ timeout = none) ∨
      ∃ n, CountAt config "timeout_secs" (2 ^ 64) n ∧ timeout = some n := by
  rw [deadline_eq_count, count_eq_ok_iff (by decide) le_rfl]

theorem of_attempts_eq_error {e : SettingsError} (h : attempts config = .error e) :
    ∃ v, At config "max_attempts" v ∧ e = .badAttempts v := by
  rw [attempts_eq_count, map_eq_error_iff] at h
  exact of_count_eq_error (by decide) h

theorem of_deadline_eq_error {e : SettingsError} (h : deadline config = .error e) :
    ∃ v, At config "timeout_secs" v ∧ e = .badTimeout v := by
  rw [deadline_eq_count] at h
  exact of_count_eq_error (by decide) h

/-! ## The checks -/

theorem passwordVariable_eq_iff : passwordVariable config = name ↔
    TextOr config "password_env" "NFY_PASSWORD" name :=
  getD_text?_eq_iff (by decide)

theorem hasText_iff (hname : name ∈ settingNames) :
    HasText config name ↔ ∃ s, text? config name = some s := by
  simp only [← exists_textAt_iff, text?_eq_some_iff hname]

theorem passes_password_iff : Passes config env .password ↔
    ∃ s, password? (env (passwordVariable config)) = some s := by
  simp only [Passes, ← passwordVariable_eq_iff, password?_eq_some_iff]
  constructor
  · rintro ⟨_, s, rfl, hs⟩
    exact ⟨s, hs⟩
  · rintro ⟨s, hs⟩
    exact ⟨_, s, rfl, hs⟩

theorem passes_attempts_iff : Passes config env .attempts ↔ ∃ n, attempts config = .ok n := by
  simp only [Passes, attempts_eq_ok_iff, exists_or, exists_and_left, exists_eq, and_true]

theorem passes_deadline_iff :
    Passes config env .deadline ↔ ∃ timeout, deadline config = .ok timeout := by
  simp only [Passes, deadline_eq_ok_iff]
  constructor
  · rintro (hvacant | ⟨n, hn⟩)
    · exact ⟨none, .inl ⟨hvacant, rfl⟩⟩
    · exact ⟨some n, .inr ⟨n, hn, rfl⟩⟩
  · rintro ⟨_, ⟨hvacant, -⟩ | ⟨n, hn, -⟩⟩
    · exact .inl hvacant
    · exact .inr ⟨n, hn⟩

/-! ## Resolving -/

/-- The settings in steps, one for each check. -/
theorem resolve_eq (config : Value) (env : String → Option String) : resolve config env = (do
    let url ← (text? config "url").elim (.error (.missing "url")) .ok
    let username ← (text? config "username").elim (.error (.missing "username")) .ok
    let password ← (password? (env (passwordVariable config))).elim
      (.error (.noPassword (passwordVariable config))) .ok
    let maxAttempts ← attempts config
    let timeout ← deadline config
    return {
      url, username, password, maxAttempts, timeout
      clientName := (text? config "client_name").getD defaultClientName }) := by
  unfold resolve resolveWith complete
  cases text? config "url" with
  | none => rfl
  | some url =>
    cases text? config "username" with
    | none => rfl
    | some username =>
      dsimp only [Id.run, bind, pure]
      cases password? (env (passwordVariable config)) with
      | none => rfl
      | some password =>
        cases attempts config with
        | error e => rfl
        | ok maxAttempts => cases deadline config <;> rfl

theorem resolve_eq_ok_iff {s : Settings} : resolve config env = .ok s ↔ Resolved config env s := by
  rw [resolve_eq]
  simp only [bind_eq_ok_iff, elim_error_eq_ok_iff, pure, Except.pure, Except.ok.injEq]
  constructor
  · rintro ⟨url, hurl, username, husername, password, hpassword, n, hn, timeout, htimeout, rfl⟩
    exact {
      url := (text?_eq_some_iff (by decide)).1 hurl
      username := (text?_eq_some_iff (by decide)).1 husername
      password := ⟨_, passwordVariable_eq_iff.1 rfl, password?_eq_some_iff.1 hpassword⟩
      clientName := (getD_text?_eq_iff (by decide)).1 rfl
      maxAttempts := attempts_eq_ok_iff.1 hn
      timeout := deadline_eq_ok_iff.1 htimeout }
  · intro h
    obtain ⟨name, hname, hpassword⟩ := h.password
    obtain rfl := passwordVariable_eq_iff.2 hname
    have hclient := (getD_text?_eq_iff (by decide)).2 h.clientName
    refine ⟨s.url, (text?_eq_some_iff (by decide)).2 h.url, s.username,
      (text?_eq_some_iff (by decide)).2 h.username, s.password,
      password?_eq_some_iff.2 hpassword, s.maxAttempts, attempts_eq_ok_iff.2 h.maxAttempts,
      s.timeout, deadline_eq_ok_iff.2 h.timeout, ?_⟩
    rw [defaultClientName, hclient]

/-- What is reported is the first check that does not pass. -/
theorem exists_failing {e : SettingsError} (h : resolve config env = .error e) :
    ∃ x, FirstWithout (Passes config env) Check.all x ∧ Reports config e x := by
  have hurl : Passes config env .url ↔ _ := hasText_iff (by decide)
  have husername : Passes config env .username ↔ _ := hasText_iff (by decide)
  rw [resolve_eq] at h
  simp only [bind_eq_error_iff, elim_error_eq_ok_iff, elim_error_eq_error_iff] at h
  rcases h with ⟨hnone, rfl⟩ | ⟨url, hsome, ⟨hnone, rfl⟩ | ⟨username, hsome', ⟨hnone, rfl⟩ |
    ⟨password, hpassword, herror | ⟨n, hn, herror | ⟨timeout, htimeout, hdone⟩⟩⟩⟩⟩
  · have hfails : ¬Passes config env .url := by simp [hurl, hnone]
    exact ⟨.url, ⟨[], _, rfl, hfails, by simp⟩, rfl⟩
  · have hfails : ¬Passes config env .username := by simp [husername, hnone]
    have hbefore : ∀ y ∈ [Check.url], Passes config env y := by simp [hurl, hsome]
    exact ⟨.username, ⟨_, _, rfl, hfails, hbefore⟩, rfl⟩
  · have hfails : ¬Passes config env .password := by simp [passes_password_iff, hnone]
    have hbefore : ∀ y ∈ [Check.url, .username], Passes config env y := by
      simp [hurl, hsome, husername, hsome']
    exact ⟨.password, ⟨_, _, rfl, hfails, hbefore⟩, _, passwordVariable_eq_iff.1 rfl, rfl⟩
  · have hfails : ¬Passes config env .attempts := by simp [passes_attempts_iff, herror]
    have hbefore : ∀ y ∈ [Check.url, .username, .password], Passes config env y := by
      simp [hurl, hsome, husername, hsome', passes_password_iff, hpassword]
    exact ⟨.attempts, ⟨_, _, rfl, hfails, hbefore⟩, of_attempts_eq_error herror⟩
  · have hfails : ¬Passes config env .deadline := by simp [passes_deadline_iff, herror]
    have hbefore : ∀ y ∈ [Check.url, .username, .password, .attempts], Passes config env y := by
      simp [hurl, hsome, husername, hsome', passes_password_iff, hpassword, passes_attempts_iff,
        hn]
    exact ⟨.deadline, ⟨_, _, rfl, hfails, hbefore⟩, of_deadline_eq_error herror⟩
  · cases hdone

theorem exists_resolve_iff : (∃ s, resolve config env = .ok s) ↔ ∀ x, Passes config env x := by
  refine exists_ok_iff_forall (fun s hs x => ?_) fun e he => ?_
  · have h := resolve_eq_ok_iff.1 hs
    cases x with
    | url => exact exists_textAt_iff.1 ⟨_, h.url⟩
    | username => exact exists_textAt_iff.1 ⟨_, h.username⟩
    | password => exact h.password.imp fun _ hname => ⟨s.password, hname⟩
    | attempts => exact h.maxAttempts.imp And.left fun hn => ⟨_, hn⟩
    | deadline => exact h.timeout.imp And.left fun ⟨n, hn, _⟩ => ⟨n, hn⟩
  · obtain ⟨x, hx, -⟩ := exists_failing he
    exact ⟨x, hx.lacks⟩

/-! ## What settings are like -/

theorem TextAt.tidy (h : TextAt config name s) : Tidy s := by
  obtain ⟨raw, -, ⟨c, hc, hblank⟩, htrims⟩ := h
  have hne : s ≠ "" := by
    rintro rfl
    have hall := Text.trimList_eq_nil_iff.1 (Text.trimList_eq_iff.2 htrims) c hc
    rw [hblank] at hall
    cases hall
  obtain ⟨-, -, -, -, -, hhead, hlast⟩ := htrims
  exact ⟨hne, hhead, hlast⟩

theorem TextOr.tidy {default : String} (h : TextOr config name default s) (hd : Tidy default) :
    Tidy s := by
  obtain htext | ⟨-, rfl⟩ := h
  · exact htext.tidy
  · exact hd

theorem tidy_defaultClientName : Tidy "nfy" where
  ne_empty := by decide
  head c hc := by
    obtain rfl : 'n' = c := Option.some.inj hc
    rfl
  last c hc := by
    obtain rfl : 'y' = c := Option.some.inj hc
    rfl

/-- Texts are tidy and numbers positive. -/
theorem Resolved.bounds {s : Settings} (h : Resolved config env s) :
    Tidy s.url ∧ Tidy s.username ∧ Tidy s.clientName ∧ 1 ≤ s.maxAttempts ∧
      ∀ n, s.timeout = some n → 0 < n := by
  refine ⟨h.url.tidy, h.username.tidy, h.clientName.tidy tidy_defaultClientName, ?_, ?_⟩
  · obtain ⟨-, hn⟩ | ⟨-, hn, -⟩ := h.maxAttempts
    · omega
    · exact hn
  · rintro n hn
    obtain ⟨-, hnone⟩ | ⟨m, ⟨-, hm, -⟩, hsome⟩ := h.timeout
    · simp [hnone] at hn
    · obtain rfl := Option.some.inj (hsome.symm.trans hn)
      exact hm

/-- One variable is looked up if there are an address and a user, and none else. -/
theorem lookups_of_passes (hurl : Passes config env .url) (huser : Passes config env .username) :
    lookups config env = [passwordVariable config] := by
  obtain ⟨url, hurl⟩ := (hasText_iff (by decide)).1 hurl
  obtain ⟨username, huser⟩ := (hasText_iff (by decide)).1 huser
  simp [lookups_eq_asked, asked, hurl, huser]

theorem lookups_of_not_passes (h : ¬(Passes config env .url ∧ Passes config env .username)) :
    lookups config env = [] := by
  have hurl : Passes config env .url ↔ _ := hasText_iff (by decide)
  have huser : Passes config env .username ↔ _ := hasText_iff (by decide)
  rw [hurl, huser, ← Option.isSome_iff_exists, ← Option.isSome_iff_exists,
    ← Bool.and_eq_true] at h
  rw [lookups_eq_asked, asked, if_neg h]

/-- A configuration has settings in an environment exactly if all checks pass, namely those that
`Resolved` describes, which have tidy texts and positive numbers. Else the first check that does
not pass is reported. The variable of the password is looked up once there are an address and a
user, and no other. -/
theorem resolve_exact (config : Value) (env : String → Option String) :
    ((∃ s, resolve config env = .ok s) ↔ ∀ x, Passes config env x) ∧
    (∀ s, resolve config env = .ok s ↔ Resolved config env s) ∧
    (∀ s, resolve config env = .ok s → Tidy s.url ∧ Tidy s.username ∧ Tidy s.clientName ∧
      1 ≤ s.maxAttempts ∧ ∀ n, s.timeout = some n → 0 < n) ∧
    (∀ e, resolve config env = .error e →
      ∃ x, FirstWithout (Passes config env) Check.all x ∧ Reports config e x) ∧
    (Passes config env .url → Passes config env .username →
      ∃ name, TextOr config "password_env" "NFY_PASSWORD" name ∧ lookups config env = [name]) ∧
    (¬(Passes config env .url ∧ Passes config env .username) → lookups config env = []) :=
  ⟨exists_resolve_iff, fun _ => resolve_eq_ok_iff, fun _ hs => (resolve_eq_ok_iff.1 hs).bounds,
    fun _ => exists_failing,
    fun hurl huser => ⟨_, passwordVariable_eq_iff.1 rfl, lookups_of_passes hurl huser⟩,
    lookups_of_not_passes⟩

end Courier.Settings
