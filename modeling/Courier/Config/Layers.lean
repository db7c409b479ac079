import Courier.Digest.Sha256
import Courier.Json.Pointer
import Courier.Text.Blank
import Courier.Yaml.Document

/-!
# Configuration in layers

A configuration is made of layers, each a YAML document. A later layer overrides an
earlier one: objects are merged key by key, and any other value replaces what lies below
it. The result has one canonical text, and its digest names the configuration.

Layers may not hold secrets, only the names of the variables that hold them; so the
loading fails if the merged value has a text that looks like a secret.
-/

namespace Courier

namespace Config

/-! ## Merging -/

mutual

/-- The value `base` under the value of a layer. -/
def merge (base : Json.Value) : Json.Value → Json.Value
  | .obj members =>
    match base with
    | .obj below => .obj (mergeMembers below members)
    | _ => .obj members
  | v => v
termination_by structural v => v

/-- The members of an object under those of a layer. -/
def mergeMembers (below : List (String × Json.Value)) :
    List (String × Json.Value) → List (String × Json.Value)
  | [] => below
  | (k, v) :: rest =>
    let v := match Entries.get? k below with
      | some b => merge b v
      | none => v
    mergeMembers (Entries.insert k v below) rest
termination_by structural ms => ms

end

/-- The value of layers that lie one on the other, on an empty object. -/
def mergeAll (layers : List Json.Value) : Json.Value :=
  layers.foldl merge (.obj [])

/-! ## Secrets -/

/-- How the texts start that look like secrets: keys in armour, keys and tokens of
well-known services. -/
def secretMarks : List String :=
  ["-----BEGIN", "AKIA", "ghp_", "gho_", "glpat-", "sk-", "sk_live", "sk_test", "xoxb-", "xoxp-"]

/-- The least size of a secret in bytes. -/
def secretSize : Nat := 8

/-- Whether a text looks like a secret, blanks around it aside. -/
def looksSecret (s : String) : Bool :=
  let cs := Text.trimList s.toList
  secretSize ≤ (Utf8.encode cs).length && secretMarks.any fun m => m.toList.isPrefixOf cs

/-- Whether a value is a text that looks like a secret. -/
def isSecret (v : Json.Value) : Bool :=
  v.asText?.any looksSecret

/-- The pointer of a leaf. A leaf that is the whole value has that of an empty key. -/
def leafPointer (path : List String) : String :=
  if path.isEmpty then "/" else String.ofList (Json.Pointer.ofPath path)

/-- The pointer of the first leaf that looks like a secret. -/
def firstSecret? (v : Json.Value) : Option String :=
  (v.leaves.find? fun l => isSecret l.2).map fun l => leafPointer l.1

end Config

/-! ## Loading -/

/-- A loaded configuration. -/
structure Config where
  /-- The merged value. -/
  value : Json.Value

/-- Why a configuration does not load. -/
inductive LoadError where
  /-- A file is not there or no text. -/
  | unreadable (path : String)
  /-- A layer is no valid document. -/
  | invalid (layer : Nat)
  /-- A layer has a key that no object can have. -/
  | unconvertible (layer : Nat)
  /-- The leaf that a pointer leads to looks like a secret. -/
  | secret (pointer : String)
deriving DecidableEq, Repr

/-- The text of an error. It shows where a secret is, and not what it is. -/
def LoadError.message : LoadError → String
  | .unreadable path => "failed to read yaml path: " ++ path
  | .invalid layer => "invalid yaml in layer " ++ toString layer
  | .unconvertible layer => "yaml->json conversion failed in layer " ++ toString layer
  | .secret pointer => "CONFIG_SECRET_DETECTED leaf=" ++ pointer ++ " value=REDACTED"

namespace Config

/-- The configuration with a merged value, if that holds no secret. -/
def ofValue (v : Json.Value) : Except LoadError Config :=
  match firstSecret? v with
  | some pointer => .error (.secret pointer)
  | none => .ok ⟨v⟩

/-- The value of a layer, from its document if that is valid. -/
def layer (i : Nat) (document : Option Yaml.Value) : Except LoadError Json.Value :=
  match document with
  | none => .error (.invalid i)
  | some v =>
    match v.toJson? with
    | none => .error (.unconvertible i)
    | some j => .ok j

/-- The values of layers, counted from `i` on. -/
def layers (i : Nat) : List (Option Yaml.Value) → Except LoadError (List Json.Value)
  | [] => .ok []
  | d :: rest =>
    match layer i d with
    | .error e => .error e
    | .ok v => (layers (i + 1) rest).map (v :: ·)

/-- The configuration of documents, `none` for one that is not valid. -/
def ofDocuments (documents : List (Option Yaml.Value)) : Except LoadError Config :=
  match layers 0 documents with
  | .error e => .error e
  | .ok vs => ofValue (mergeAll vs)

/-- The configuration of the texts of documents. -/
def ofTexts (texts : List String) : Except LoadError Config :=
  ofDocuments (texts.map Yaml.parse?)

/-- The text of a file, if it is there and a text. -/
def readText (read : String → Option (List UInt8)) (path : String) : Except LoadError String :=
  match (read path).bind Utf8.decode? with
  | none => .error (.unreadable path)
  | some cs => .ok (String.ofList cs)

/-- The texts of files; all of them are read before any is looked at. -/
def readTexts (read : String → Option (List UInt8)) :
    List String → Except LoadError (List String)
  | [] => .ok []
  | path :: rest =>
    match readText read path with
    | .error e => .error e
    | .ok s => (readTexts read rest).map (s :: ·)

/-- The configuration of files. -/
def ofPaths (read : String → Option (List UInt8)) (paths : List String) :
    Except LoadError Config :=
  match readTexts read paths with
  | .error e => .error e
  | .ok texts => ofTexts texts

/-! ## The name of a configuration -/

variable (c : Config)

/-- The text of the merged value, with the keys of every object in order. -/
def canonicalText : String :=
  c.value.toText

/-- The digest of the canonical text. -/
def hash : String :=
  Sha256.hexDigest (Utf8.ofString c.canonicalText)

end Config

end Courier
