import Courier.Command.SendRequest

/-!
# The command line

`Invocation.ofArguments` says what the words of a command line ask for. An option has two
hyphens, and its value is the next word or what follows an equals sign; the next word is
no value if it starts with a hyphen. Words are looked at one after the other, and the
first that is wrong, or that asks for help, decides.
-/

namespace Courier

/-- What a command line asks for. -/
inductive Invocation where
  | send (configs : List String) (request : SendRequest) (record : Bool)
  | configHash (paths : List String) (failUnused : Bool)
  | dbStatus
  | dbMigrate
deriving DecidableEq

namespace Command

/-- Why a command line asks for nothing that could be done. -/
inductive Stop where
  /-- It asks for help. -/
  | help
  | misuse
deriving DecidableEq, Repr

/-- What a word of a command line is. -/
inductive Item where
  | value (option text : String)
  | switch (option : String)
  | operand (text : String)
deriving DecidableEq, Repr

/-- An option with a value. -/
structure Valued where
  name : String
  /-- Whether it may be given more than once. -/
  many : Bool
  /-- Whether a text may be its value. -/
  valid : String → Bool

/-- What a command takes. -/
structure Usage where
  valued : List Valued
  switches : List String
  /-- Whether it takes words that are no options. -/
  operands : Bool

namespace Usage

variable (u : Usage)

/-- The item of a switch, unless it was given before. -/
def admitSwitch (seen : List Item) (name : String) : Except Stop Item :=
  if u.switches.contains name && !seen.contains (.switch name) then .ok (.switch name)
  else .error .misuse

/-- Whether an option has been given a value. -/
def isGiven (seen : List Item) (name : String) : Bool :=
  seen.any fun
    | .value n _ => n == name
    | _ => false

/-- The item of an option with a value, if it may have it. -/
def admitValue (seen : List Item) (name text : String) : Except Stop Item :=
  match u.valued.find? (·.name == name) with
  | none => .error .misuse
  | some o =>
    if o.valid text && (o.many || !isGiven seen name) then .ok (.value name text)
    else .error .misuse

/-- The item of a word that is no option. -/
def admitOperand (text : String) : Except Stop Item :=
  if u.operands then .ok (.operand text) else .error .misuse

/-- Whether a word looks like an option. -/
def isOption (word : String) : Bool :=
  word.startsWith "-" && word != "-"

/-- The name of an option without its hyphens, and the value behind an equals sign. -/
def splitOption (word : String) : String × Option String :=
  let cs := word.toList.drop 2
  let name := String.ofList (cs.takeWhile (· != '='))
  match cs.dropWhile (· != '=') with
  | [] => (name, none)
  | _ :: text => (name, some (String.ofList text))

/-- The items of words, after those in `seen`, latest first. After two hyphens alone no
word is an option. -/
def items (seen : List Item) : List String → Except Stop (List Item)
  | [] => .ok seen.reverse
  | word :: rest =>
    if word == "--" then do
      let operands ← rest.mapM u.admitOperand
      return seen.reverse ++ operands
    else if word.startsWith "--" then
      match splitOption word, rest with
      | (name, some text), rest => do
        let item ← u.admitValue seen name text
        items (item :: seen) rest
      | (name, none), rest =>
        if name == "help" then .error .help
        else if u.switches.contains name then do
          let item ← u.admitSwitch seen name
          items (item :: seen) rest
        else
          match rest with
          | [] => .error .misuse
          | text :: rest =>
            if isOption text then .error .misuse
            else do
              let item ← u.admitValue seen name text
              items (item :: seen) rest
    else if isOption word then
      if word.startsWith "-h" then .error .help else .error .misuse
    else do
      let item ← u.admitOperand word
      items (item :: seen) rest

end Usage

/-- The values of an option. -/
def values (name : String) (items : List Item) : List String :=
  items.filterMap fun
    | .value n text => if n = name then some text else none
    | _ => none

/-- The first value of an option. -/
def value? (name : String) (items : List Item) : Option String :=
  (values name items).head?

/-- The words that are no options. -/
def operands (items : List Item) : List String :=
  items.filterMap fun
    | .operand text => some text
    | _ => none

/-! ## Commands -/

/-- The flag that a word spells. -/
def flag? (text : String) : Option Bool :=
  if text = "true" then some true else if text = "false" then some false else none

/-- What `send` takes. -/
def sendUsage : Usage where
  valued :=
    let once (name : String) : Valued := ⟨name, false, fun _ => true⟩
    [⟨"config", true, fun _ => true⟩, ⟨"tag", true, fun _ => true⟩,
      ⟨"type", false, fun s => (kinds.parse? s).isSome⟩,
      ⟨"severity", false, fun s => (severities.parse? s).isSome⟩,
      ⟨"mute", false, fun s => (flag? s).isSome⟩,
      once "name", once "url", once "username", once "message", once "mute-reason"]
  switches := ["record"]
  operands := false

/-- What the items of `send` ask for: files, a name and a kind are needed. -/
def sendInvocation (items : List Item) : Except Stop Invocation :=
  let text (name : String) : String := (value? name items).getD ""
  match values "config" items, value? "name" items, (value? "type" items).bind kinds.parse? with
  | c :: configs, some name, some kind =>
    .ok (.send (c :: configs) {
        name := name
        kind := kind
        severity := ((value? "severity" items).bind severities.parse?).getD .none
        url := text "url"
        tags := values "tag" items
        username := text "username"
        message := text "message"
        mute := (value? "mute" items).bind flag?
        muteReason := text "mute-reason" }
      (items.contains (.switch "record")))
  | _, _, _ => .error .misuse

/-- What `config-hash` takes. -/
def configHashUsage : Usage where
  valued := []
  switches := ["fail-unused"]
  operands := true

/-- What the items of `config-hash` ask for: at least one file is needed. -/
def configHashInvocation (items : List Item) : Except Stop Invocation :=
  match operands items with
  | [] => .error .misuse
  | paths => .ok (.configHash paths (items.contains (.switch "fail-unused")))

/-- What a command without options takes. -/
def bareUsage : Usage where
  valued := []
  switches := []
  operands := false

/-- The commands, each by its words. -/
def commands : List (List String) :=
  [["send"], ["config-hash"], ["db"], ["db", "status"], ["db", "migrate"]]

/-- What a request for help on a command asks for. -/
def help (path : List String) : Except Stop Invocation :=
  if path.isEmpty || commands.contains path || path.getLast? = some "help" then .error .help
  else .error .misuse

/-- What a word in the place of a command asks for. -/
def noCommand (word : String) : Except Stop Invocation :=
  if word = "--help" ∨ (word.startsWith "-h" ∧ Usage.isOption word) then .error .help
  else .error .misuse

end Command

open Command in
/-- What the words of a command line ask for. -/
def Invocation.ofArguments : List String → Except Stop Invocation
  | "send" :: words => (sendUsage.items [] words).bind sendInvocation
  | "config-hash" :: words => (configHashUsage.items [] words).bind configHashInvocation
  | "db" :: "status" :: words => (bareUsage.items [] words).map fun _ => .dbStatus
  | "db" :: "migrate" :: words => (bareUsage.items [] words).map fun _ => .dbMigrate
  | "db" :: "help" :: words => help ("db" :: words)
  | "db" :: word :: _ => noCommand word
  | "help" :: words => help words
  | word :: _ => noCommand word
  | [] => .error .misuse

end Courier
