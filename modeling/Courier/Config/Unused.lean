import Courier.Config.Layers
import Courier.Text.Quoted

/-!
# Unused keys

A key that nobody reads is likely a mistake. `Config.unusedReport` lists the leaves of a
value that lie at no pointer of a registry and below none.
-/

namespace Courier.Config

/-- The pointers that the settings of the client are read from. -/
def consumedPointers : List String :=
  ["/notifications/url", "/notifications/username", "/notifications/password_env",
    "/notifications/client_name", "/notifications/max_attempts", "/notifications/timeout_secs"]

/-- A pointer in its usual form: no blanks around it, one slash in front, none at the
end. -/
def normalize (pointer : String) : String :=
  let cs := Text.dropEndWhile (· = '/') (Text.trimList pointer.toList)
  let cs := match cs with
    | '/' :: rest => rest
    | _ => cs
  String.ofList ('/' :: cs)

/-- Whether a pointer leads to or below the place of another, whose keys it shares. The
pointer of a single slash covers everything. -/
def covers (upper pointer : String) : Bool :=
  upper == "/" ||
    (upper.toList.isPrefixOf pointer.toList
      && (pointer.toList.drop upper.toList.length).head?.all (· == '/'))

/-- Which pointers are read, and which leaves are not. -/
structure UnusedReport where
  consumed : KeySet
  unused : KeySet
deriving DecidableEq

/-- Whether every leaf is read. -/
def UnusedReport.isClean (r : UnusedReport) : Bool :=
  r.unused.toList.isEmpty

/-- The report on a value against a registry of pointers. -/
def unusedReport (registry : List String) (v : Json.Value) : UnusedReport :=
  let consumed := KeySet.ofList (registry.map normalize)
  let leaves := v.leaves.map fun l => leafPointer l.1
  ⟨consumed, KeySet.ofList (leaves.filter fun p => !consumed.toList.any (covers · p))⟩

/-- What to do about unused keys. -/
inductive UnusedPolicy where
  | warn
  | fail
deriving DecidableEq, Repr

/-- Keys that are not used and should be. -/
structure UnusedError where
  unused : List String
deriving DecidableEq, Repr

/-- The text of the error: how many pointers there are, and the first twelve. -/
def UnusedError.message (e : UnusedError) : String :=
  "CONFIG_UNUSED_KEYS: " ++ toString e.unused.length
    ++ " unused config leaf key(s) detected. Remove them or add them to the consumed registry. "
    ++ "First few: " ++ Text.quoteList (e.unused.take 12)

/-- The report on a value, or an error if the policy lets no key be unused. -/
def checkUnused (policy : UnusedPolicy) (registry : List String) (v : Json.Value) :
    Except UnusedError UnusedReport :=
  let report := unusedReport registry v
  if policy = .fail ∧ !report.isClean then .error ⟨report.unused.toList⟩ else .ok report

end Courier.Config
