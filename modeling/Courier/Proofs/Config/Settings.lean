import Courier.Config.Settings
import Courier.Proofs.Json.Edit

/-!
# What settings are read from

Settings are read from six places of a configuration (`settingNames`) and from the variables that
are looked up on the way (`lookups`), of which there is one, if there is an address and a user
(`lookups_eq_asked`). Configurations with the same in these places are resolved alike, whatever a
lookup does (`resolveWith_congr`), and so is a configuration in environments that give the variable
the same value (`resolve_congr_env`).
-/

namespace Courier.Settings

open Json (Value)

/-- The settings that a configuration may have. -/
def settingNames : List String :=
  ["url", "username", "password_env", "client_name", "max_attempts", "timeout_secs"]

theorem toPath?_setting : ∀ name ∈ settingNames,
    Json.Pointer.toPath? ("/notifications/" ++ name).toList = some ["notifications", name] := by
  decide +kernel

/-- The variables that are looked up in an environment when settings are resolved, in order. -/
def lookups (config : Value) (env : String → Option String) : List String :=
  let logged : StateM (List String) (Except SettingsError Settings) :=
    resolveWith config fun name => modifyGet fun log => (env name, log ++ [name])
  (logged.run []).2

/-- Only the variable of the password is looked up, and only with an address and a user. -/
theorem lookups_eq_asked (config : Value) (env : String → Option String) :
    lookups config env = asked config := by
  unfold lookups resolveWith asked
  cases text? config "url" with
  | none => rfl
  | some url => cases text? config "username" <;> rfl

/-- Only the variables that are looked up matter. -/
theorem resolve_congr_env {config : Value} {env env' : String → Option String}
    (h : ∀ name ∈ asked config, env name = env' name) :
    resolve config env = resolve config env' := by
  unfold resolve resolveWith
  unfold asked at h
  cases hurl : text? config "url" with
  | none => rfl
  | some url =>
    cases huser : text? config "username" with
    | none => rfl
    | some username =>
      rw [hurl, huser] at h
      have henv := h _ (List.mem_singleton_self _)
      simp only [henv]

/-- Only the places of settings matter. -/
theorem resolveWith_congr {config config' : Value}
    (h : ∀ name ∈ settingNames, setting? config name = setting? config' name)
    {m : Type → Type} [Monad m] (lookup : String → m (Option String)) :
    resolveWith config lookup = resolveWith config' lookup := by
  have htext : ∀ name ∈ settingNames, text? config name = text? config' name := by
    intro name hname
    rw [text?, text?, h name hname]
  have hvariable : passwordVariable config = passwordVariable config' := by
    rw [passwordVariable, passwordVariable, htext _ (by decide)]
  have hattempts : attempts config = attempts config' := by
    rw [attempts, attempts, h _ (by decide)]
  have hdeadline : deadline config = deadline config' := by
    rw [deadline, deadline, h _ (by decide)]
  have hcomplete : complete config = complete config' := by
    funext url username value
    rw [complete, complete, hvariable, hattempts, hdeadline, htext "client_name" (by decide)]
  rw [resolveWith, resolveWith, htext "url" (by decide), htext "username" (by decide), hvariable,
    hcomplete]

end Courier.Settings
