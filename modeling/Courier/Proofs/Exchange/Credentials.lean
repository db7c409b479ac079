import Courier.Command.Send
import Courier.Proofs.Config.Resolve
import Courier.Proofs.Exchange.Requests
import Courier.Proofs.Text.Base64
import Courier.Proofs.Text.Utf8

/-!
# What a server recovers of credentials

A server reads the digits of an authorization header and takes the text behind them apart at its
first colon (`Credentials.recover?`). It always finds the text of user and password put together
(`Credentials.exists_recover?`), but it finds the two of them exactly if there is no colon in the
user (`Credentials.recover?_eq_iff`), which settings do not look at
(`Settings.requests_recover`).
-/

namespace Courier

namespace Credentials

/-! ## The reader -/

/-- The texts before and after the first colon of a text, if there is one. -/
def splitColon? (cs : List Char) : Option (String × String) :=
  match cs.dropWhile (· != ':') with
  | [] => none
  | _ :: after => some (String.ofList (cs.takeWhile (· != ':')), String.ofList after)

/-- The user and the password that a server takes from an authorization header. -/
def recover? (header : String) : Option (String × String) := do
  let digits ← "Basic ".toList.isPrefixOf? header.toList
  let bytes ← Base64.decode? digits
  let text ← Utf8.decode? bytes
  splitColon? text

theorem splitColon?_append {front : String} (back : String) (h : ':' ∉ front.toList) :
    splitColon? (front ++ ":" ++ back).toList = some (front, back) := by
  have hfront : ∀ c ∈ front.toList, (c != ':') = true := by
    intro c hc
    rw [bne_iff_ne]
    rintro rfl
    exact h hc
  have htext : (front ++ ":" ++ back).toList = front.toList ++ ':' :: back.toList := by simp
  rw [splitColon?, htext, List.dropWhile_append_of_pos hfront,
    List.takeWhile_append_of_pos hfront, List.dropWhile_cons_of_neg (by simp),
    List.takeWhile_cons_of_neg (by simp)]
  simp

/-- A text with a colon has a first one. -/
theorem exists_first_colon {s : String} (h : ':' ∈ s.toList) :
    ∃ front back, front ++ ":" ++ back = s ∧ ':' ∉ front.toList := by
  obtain ⟨front, back, hs, hfront⟩ := List.eq_append_cons_of_mem h
  refine ⟨String.ofList front, String.ofList back, String.toList_injective ?_, by simpa using hfront⟩
  simp [hs]

/-! ## What it recovers -/

variable (c : Credentials)

/-- The reader has the text of the credentials before it. -/
theorem recover?_authorization :
    recover? c.authorization = splitColon? (c.username ++ ":" ++ c.password).toList := by
  have hdigits : "Basic ".toList.isPrefixOf? c.authorization.toList =
      some (Base64.encode (Utf8.ofString (c.username ++ ":" ++ c.password))) := by
    simp [List.isPrefixOf?_eq_some_iff_append_eq, authorization]
  simp only [recover?, hdigits, Option.bind_eq_bind, Option.bind_some, Base64.decode?_encode,
    Utf8.decode?_ofString]

/-- The two texts that are recovered are user and password, put together. -/
theorem exists_recover? : ∃ front back, recover? c.authorization = some (front, back) ∧
    front ++ ":" ++ back = c.username ++ ":" ++ c.password ∧ ':' ∉ front.toList := by
  have hcolon : ':' ∈ (c.username ++ ":" ++ c.password).toList := by simp
  obtain ⟨front, back, htext, hfront⟩ := exists_first_colon hcolon
  refine ⟨front, back, ?_, htext, hfront⟩
  rw [recover?_authorization, ← htext, splitColon?_append back hfront]

/-- User and password are recovered if there is no colon in the user, and only then. -/
theorem recover?_eq_iff :
    recover? c.authorization = some (c.username, c.password) ↔ ':' ∉ c.username.toList := by
  constructor
  · intro h
    obtain ⟨front, back, hrecover, -, hfront⟩ := c.exists_recover?
    obtain ⟨rfl, -⟩ := Prod.mk.inj (Option.some.inj (hrecover.symm.trans h))
    exact hfront
  · intro h
    rw [recover?_authorization, splitColon?_append _ h]

end Credentials

/-! ## The requests of a client -/

namespace Client

variable {c : Client} {run : Run} {r : Request}

/-- The headers of each request. -/
theorem headers_of_mem_requests (h : r ∈ c.requests run) :
    r.headers = [("accept", "application/json"), ("authorization", c.credentials.authorization),
      ("content-type", "application/json"), ("user-agent", c.credentials.userAgent)] := by
  obtain ⟨e, -, he⟩ := List.mem_filterMap.1 h
  rw [request?] at he
  split at he
  · cases he
  · rw [Credentials.sign?] at he
    split at he
    · obtain rfl := Option.some.inj he
      rfl
    · cases he

/-- Each request says once who sends it. -/
theorem authorization_of_mem_requests (h : r ∈ c.requests run) :
    r.headers.filter (·.1 == "authorization") =
      [("authorization", c.credentials.authorization)] := by
  rw [headers_of_mem_requests h]
  rfl

end Client

/-! ## Clients with settings -/

namespace Settings

open Json (Value)

variable {config : Value} {env : String → Option String} {s : Settings}

/-- A text that is read has a colon exactly if the configured one has, since trimming cuts off
none. -/
theorem TextAt.colon_iff {name text : String} (h : TextAt config name text) :
    ':' ∉ text.toList ↔ ∀ raw, At config name (.str raw) → ':' ∉ raw.toList := by
  obtain ⟨raw, hat, -, before, after, htrim, hbefore, hafter, -⟩ := h
  have hblank : Text.isBlank ':' = false := by decide
  have hmem : ':' ∈ raw.toList ↔ ':' ∈ text.toList := by
    rw [htrim, List.mem_append, List.mem_append]
    constructor
    · rintro (hc | hc | hc)
      · exact absurd (hbefore _ hc) (by simp [hblank])
      · exact hc
      · exact absurd (hafter _ hc) (by simp [hblank])
    · exact fun hc => .inr (.inl hc)
  constructor
  · intro htext raw' hat'
    obtain rfl := Value.str.inj (hat.unique hat')
    exact fun hc => htext (hmem.1 hc)
  · exact fun hraw hc => hraw raw hat (hmem.2 hc)

/-- Each request of a client with settings has one authorization header. What a server recovers from
it is, put together, the user and the password of the settings, and it is the two of them exactly if
no colon stands in the configured user. -/
theorem requests_recover (h : resolve config env = .ok s) (endpoint : Endpoint) (run : Run) :
    ∀ r ∈ (Client.mk endpoint s.credentials).requests run, ∃ header front back,
      r.headers.filter (·.1 == "authorization") = [("authorization", header)] ∧
        Credentials.recover? header = some (front, back) ∧
        front ++ ":" ++ back = s.username ++ ":" ++ s.password ∧ ':' ∉ front.toList ∧
        ((front = s.username ∧ back = s.password) ↔
          ∀ raw, At config "username" (.str raw) → ':' ∉ raw.toList) := by
  intro r hr
  obtain ⟨front, back, hrecover, htext, hfront⟩ := s.credentials.exists_recover?
  have huser := (resolve_eq_ok_iff.1 h).username
  refine ⟨_, front, back, Client.authorization_of_mem_requests hr, hrecover, htext, hfront, ?_⟩
  rw [← huser.colon_iff, ← Prod.mk.injEq, ← Option.some.injEq, ← hrecover]
  exact s.credentials.recover?_eq_iff

/-- A configuration with an address and a user. -/
def ofUser (username : String) : Value :=
  .obj [("notifications", .obj [("url", .str "http://h"), ("username", .str username)])]

/-- An environment with a password. -/
def withPassword (password name : String) : Option String :=
  if name = "NFY_PASSWORD" then some password else none

/-- The settings with the address, a user and a password, and with nothing else configured. -/
def ofCredentials (username password : String) : Settings :=
  ⟨"http://h", username, password, "nfy", 3, none⟩

/-- The client with these settings. -/
def clientOf (username password : String) : Client :=
  let url (parts : List (List Char)) : Url :=
    ⟨"http".toList, some ⟨[], none, .domain ['h'], none⟩, .segments parts, none, none⟩
  ⟨⟨url [[]], url ["process-event".toList]⟩, (ofCredentials username password).credentials⟩

/-- A run with one request. -/
def briefRun : Run :=
  ⟨[.bare "n" .unknown], .waiting⟩

/-- No other name has a value in the configuration. -/
theorem not_at_ofUser {username name : String} (hurl : name ≠ "url") (huser : name ≠ "username")
    (v : Value) : ¬At (ofUser username) name v := by
  rintro ⟨ms, ns, hms, hns, hv⟩
  obtain rfl := Value.obj.inj hms
  obtain rfl := Value.obj.inj (Option.some.inj hns)
  simp [Entries.get?, hurl.symm, huser.symm] at hv

theorem resolve_ofUser {configured username password : String} (hne : NotBlank configured)
    (htrim : Text.trim configured = username) (hpassword : NotBlank password) :
    resolve (ofUser configured) (withPassword password) =
      .ok (ofCredentials username password) := by
  have hvacant : ∀ name, name ≠ "url" → name ≠ "username" → Vacant (ofUser configured) name :=
    fun name hurl huser v hv => absurd hv (not_at_ofUser hurl huser v)
  have hdefault : ∀ name default, name ≠ "url" → name ≠ "username" →
      TextOr (ofUser configured) name default default :=
    fun name default hurl huser =>
      .inr ⟨fun ⟨raw, hraw, _⟩ => not_at_ofUser hurl huser _ hraw, rfl⟩
  have haddress : Text.trim "http://h" = "http://h" := by decide +kernel
  exact resolve_eq_ok_iff.2 {
    url := ⟨"http://h", ⟨_, _, rfl, rfl, rfl⟩, ⟨'h', by decide, by decide⟩,
      Text.trim_eq_iff.1 haddress⟩
    username := ⟨configured, ⟨_, _, rfl, rfl, rfl⟩, hne, Text.trim_eq_iff.1 htrim⟩
    password := ⟨_, hdefault _ _ (by decide) (by decide), rfl, hpassword⟩
    clientName := hdefault _ _ (by decide) (by decide)
    maxAttempts := .inl ⟨hvacant _ (by decide) (by decide), rfl⟩
    timeout := .inl ⟨hvacant _ (by decide) (by decide), rfl⟩ }

theorem exists_mem_requests (username password : String) :
    ∃ r, r ∈ (clientOf username password).requests briefRun := by
  have hmakes : (clientOf username password).refusal? = none := by
    have hfixed : (clientOf username password).refusal? = (clientOf "" "").refusal? := rfl
    rw [hfixed]
    decide +kernel
  obtain ⟨r, hr, -⟩ := (clientOf username password).request?_eq_some hmakes (.bare "n" .unknown)
  exact ⟨r, List.mem_filterMap.2 ⟨_, List.mem_singleton_self _, hr⟩⟩

/-- A password with a colon is recovered, and so is a user that is configured with blanks. -/
theorem requests_recover_blank :
    resolve (ofUser " u ") (withPassword "p:q") = .ok (ofCredentials "u" "p:q") ∧
      ∃ r ∈ (clientOf "u" "p:q").requests briefRun, ∃ header,
        r.headers.filter (·.1 == "authorization") = [("authorization", header)] ∧
          Credentials.recover? header = some ("u", "p:q") := by
  have hresolve : resolve (ofUser " u ") (withPassword "p:q") =
      .ok (ofCredentials "u" "p:q") :=
    resolve_ofUser ⟨'u', by decide, by decide⟩ (by decide +kernel) ⟨'p', by decide, by decide⟩
  obtain ⟨r, hr⟩ := exists_mem_requests "u" "p:q"
  obtain ⟨header, front, back, hheader, hrecover, -, -, hiff⟩ :=
    requests_recover hresolve (clientOf "u" "p:q").endpoint briefRun r hr
  have hat : At (ofUser " u ") "username" (.str " u ") := ⟨_, _, rfl, rfl, rfl⟩
  have hplain : ∀ raw, At (ofUser " u ") "username" (.str raw) → ':' ∉ raw.toList := by
    intro raw hraw
    obtain rfl := Value.str.inj (hat.unique hraw)
    decide
  obtain ⟨rfl, rfl⟩ := hiff.2 hplain
  exact ⟨hresolve, r, hr, header, hheader, hrecover⟩

/-- A user with a colon is taken apart. -/
theorem requests_recover_colon :
    resolve (ofUser "a:b") (withPassword "p") = .ok (ofCredentials "a:b" "p") ∧
      Endpoint.ofBase (ofCredentials "a:b" "p").url = .ok (clientOf "a:b" "p").endpoint ∧
      ∃ r ∈ (clientOf "a:b" "p").requests briefRun, ∃ header,
        r.headers.filter (·.1 == "authorization") = [("authorization", header)] ∧
          Credentials.recover? header = some ("a", "b:p") := by
  obtain ⟨r, hr⟩ := exists_mem_requests "a:b" "p"
  have hresolve : resolve (ofUser "a:b") (withPassword "p") = .ok (ofCredentials "a:b" "p") :=
    resolve_ofUser ⟨'a', by decide, by decide⟩ (by decide +kernel) ⟨'p', by decide, by decide⟩
  refine ⟨hresolve, ?_, r, hr, _, Client.authorization_of_mem_requests hr, ?_⟩
  · decide +kernel
  · decide +kernel

end Settings

end Courier
