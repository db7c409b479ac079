import Courier.Json.Pointer
import Courier.Text.Blank
import Courier.Text.Quoted

/-!
# Settings of the client

The settings are read from the merged configuration, except for the password: the
configuration only names the variable that holds it. Texts are trimmed, and a blank text
counts as none; the password stays as it is.
-/

namespace Courier

/-- What a client needs to know. -/
structure Settings where
  url : String
  username : String
  password : String
  clientName : String
  /-- How often an event may be submitted, the first time included. -/
  maxAttempts : Nat
  /-- The deadline of a submission in seconds. -/
  timeout : Option Nat
deriving DecidableEq

/-- Why there are no settings. -/
inductive SettingsError where
  /-- A setting without a default is missing. -/
  | missing (field : String)
  /-- The variable that should hold the password holds none. -/
  | noPassword (name : String)
  | badAttempts (v : Json.Value)
  | badTimeout (v : Json.Value)

/-- The text of an error. It shows the variable of the password, and never the password. -/
def SettingsError.message : SettingsError → String
  | .missing field => "SETTINGS_MISSING: notifications." ++ field ++ " is required"
  | .noPassword name =>
    "SECRETS_MISSING: required env var '" ++ name
      ++ "' (notifications password) is not set or empty"
  | .badAttempts v =>
    "SETTINGS_INVALID: notifications.max_attempts must be an integer >= 1, got " ++ v.toText
  | .badTimeout v =>
    "SETTINGS_INVALID: notifications.timeout_secs must be a positive integer, got " ++ v.toText

namespace Settings

/-- The variable of the password if none is named. -/
def defaultVariable : String := "NFY_PASSWORD"

/-- The client's name if none is given. -/
def defaultClientName : String := "nfy"

/-- The number of attempts if none is given. -/
def defaultAttempts : Nat := 3

/-- The first number of attempts that is too great. -/
def attemptsBound : Nat := 0x100000000

/-- The setting of a name in a configuration. -/
def setting? (config : Json.Value) (name : String) : Option Json.Value :=
  config.pointer? ("/notifications/" ++ name)

/-- The text of a setting, trimmed, if it is one and not blank. -/
def text? (config : Json.Value) (name : String) : Option String :=
  ((setting? config name).bind (·.asText?)).bind fun s =>
    if Text.isBlankText s then none else some (Text.trim s)

/-- The variable that holds the password. -/
def passwordVariable (config : Json.Value) : String :=
  (text? config "password_env").getD defaultVariable

/-- The variables that are looked up: that of the password, once there are an address and
a user. -/
def asked (config : Json.Value) : List String :=
  if (text? config "url").isSome && (text? config "username").isSome then
    [passwordVariable config]
  else []

/-- The number of attempts: an integer from one to below the bound. -/
def attempts (config : Json.Value) : Except SettingsError Nat :=
  match setting? config "max_attempts" with
  | none | some .null => .ok defaultAttempts
  | some v =>
    match v.asNatural? with
    | some n => if 1 ≤ n ∧ n < attemptsBound then .ok n else .error (.badAttempts v)
    | none => .error (.badAttempts v)

/-- The deadline: none, or an integer above zero. -/
def deadline (config : Json.Value) : Except SettingsError (Option Nat) :=
  match setting? config "timeout_secs" with
  | none | some .null => .ok none
  | some v =>
    match v.asNatural? with
    | some n => if 0 < n then .ok (some n) else .error (.badTimeout v)
    | none => .error (.badTimeout v)

/-- The password that a variable holds, if it is not blank. -/
def password? (value : Option String) : Option String :=
  value.filter fun s => !Text.isBlankText s

/-- The settings of a configuration with an address and a user, given the value of the
variable of the password. -/
def complete (config : Json.Value) (url username : String) (value : Option String) :
    Except SettingsError Settings :=
  match password? value with
  | none => .error (.noPassword (passwordVariable config))
  | some password =>
    match attempts config, deadline config with
    | .error e, _ => .error e
    | .ok _, .error e => .error e
    | .ok maxAttempts, .ok timeout => .ok {
        url, username, password, maxAttempts, timeout
        clientName := (text? config "client_name").getD defaultClientName }

/-- The settings of a configuration, where `lookup` looks a variable up. -/
def resolveWith {m : Type → Type} [Monad m] (config : Json.Value)
    (lookup : String → m (Option String)) : m (Except SettingsError Settings) :=
  match text? config "url", text? config "username" with
  | none, _ => return .error (.missing "url")
  | some _, none => return .error (.missing "username")
  | some url, some username => do
    let value ← lookup (passwordVariable config)
    return complete config url username value

/-- The settings of a configuration in an environment. -/
def resolve (config : Json.Value) (env : String → Option String) :
    Except SettingsError Settings :=
  Id.run (resolveWith config fun name => return env name)

/-- What a log may show of settings: everything but the password. -/
def describe (s : Settings) : String :=
  "ClientSettings \x7b url: " ++ Text.quote s.url ++ ", username: " ++ Text.quote s.username
    ++ ", password: \"<REDACTED>\", client_name: " ++ Text.quote s.clientName
    ++ ", max_attempts: " ++ toString s.maxAttempts ++ ", timeout: "
    ++ (match s.timeout with
      | none => "None"
      | some n => "Some(" ++ toString n ++ "s)")
    ++ " \x7d"

end Settings

end Courier
