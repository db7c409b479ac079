import Courier.Dict
import Courier.Yaml.Token

/-!
# Nodes

The tokens of a document spell one node, with nodes inside it. A node may have a tag and
an anchor; an alias stands for an anchored node. `Node.ofTokens?` reads the node.

An anchor's number is the count of different names seen before it, so two anchors have
the same number if a name came twice before the second one. An alias has the number of
its name at that place, and stands for the last node whose anchor has that number.
-/

namespace Courier.Yaml

/-- A node of a document. -/
inductive Node where
  | alias (anchor : Nat)
  | scalar (anchor : Option Nat) (tag : Option Tag) (text : String) (plain : Bool)
  | seq (anchor : Option Nat) (tag : Option Tag) (items : List Node)
  | map (anchor : Option Nat) (tag : Option Tag) (entries : List (Node × Node))
deriving Inhabited

/-- What the handles of tags stand for. -/
abbrev Handles := List (String × Tag)

/-- The handles that need no directive. -/
def Handles.standard : Handles :=
  [("!", [33]), ("!!", "tag:yaml.org,2002:".toUTF8.toList)]

/-- Tokens that are being read, and the anchors before them. -/
structure Reading where
  tokens : List Token
  /-- The number of each name. -/
  anchors : List (String × Nat)

/-- A reader of tokens. -/
abbrev Reader := StateT Reading Option

namespace Node

/-! ## Tokens -/

/-- The next token. -/
def peek? : Reader (Option Token) :=
  return (← get).tokens.head?

/-- Takes one token. -/
def skip : Reader Unit :=
  modify fun r => { r with tokens := r.tokens.drop 1 }

/-- Whether the next token is one of `ts`; none is if there is no token left. -/
def isNext (ts : List Token) : Reader Bool :=
  return (← peek?).any ts.contains

/-- Takes the next token if it is `t`. -/
def take? (t : Token) : Reader Bool := do
  if ← isNext [t] then
    skip
    return true
  else return false

/-- A text that is not there. -/
def missing : Node :=
  .scalar none none "" true

/-! ## Anchors and tags -/

/-- The number of an anchor. -/
def register (name : Option String) : Reader (Option Nat) := do
  match name with
  | none => return none
  | some name =>
    let n := (← get).anchors.length
    modify fun r => { r with anchors := Entries.insert name n r.anchors }
    return some n

/-- Takes an anchor. -/
def anchor? : Reader (Option String) := do
  match ← peek? with
  | some (.anchor name) =>
    skip
    return some name
  | _ => return none

/-- Takes a tag and writes its handle out. -/
def tag? (handles : Handles) : Reader (Option Tag) := do
  match ← peek? with
  | some (.tag handle rest) =>
    skip
    if handle = "" then return some rest
    else
      match Entries.get? handle handles with
      | none => failure
      | some start => return some (start ++ rest)
  | _ => return none

/-- Takes an anchor and a tag, in either order. -/
def properties (handles : Handles) : Reader (Option String × Option Tag) := do
  let before ← anchor?
  let tag ← tag? handles
  let after ← if before.isNone && tag.isSome then anchor? else pure none
  return (before <|> after, tag)

/-! ## Reading -/

/-- A node of nothing but an anchor or a tag. -/
def lone (name : Option String) (tag : Option Tag) : Reader Node := do
  if name.isNone && tag.isNone then failure
  else return .scalar (← register name) tag "" true

mutual

/-- Reads a node. `block` says whether a block may start here, `bare` whether the items of
a sequence may stand at the indentation of the mapping around. `fuel` bounds the number
of steps, here and below. -/
def read (handles : Handles) (block bare : Bool) : Nat → Reader Node
  | 0 => failure
  | fuel + 1 => do
    if let some (.alias name) ← peek? then
      skip
      match Entries.get? name (← get).anchors with
      | none => failure
      | some n => return .alias n
    else
      let (name, tag) ← properties handles
      if let some (.scalar text plain) ← peek? then
        skip
        return .scalar (← register name) tag text plain
      else if bare && (← isNext [.item]) then
        return .seq (← register name) tag (← bareItems handles fuel [])
      else if ← take? .flowSeq then
        return .seq (← register name) tag (← flowItems handles true fuel [])
      else if ← take? .flowMap then
        return .map (← register name) tag (← flowEntries handles true fuel [])
      else if block && (← isNext [.blockSeq]) then
        skip
        return .seq (← register name) tag (← blockItems handles fuel [])
      else if block && (← isNext [.blockMap]) then
        skip
        return .map (← register name) tag (← blockEntries handles fuel [])
      else lone name tag

/-- Reads the items of a block sequence, after those in `done`, latest first. -/
def blockItems (handles : Handles) : Nat → List Node → Reader (List Node)
  | 0, _ => failure
  | fuel + 1, done => do
    if ← take? .item then
      let n ← orMissing handles true false [.item, .blockEnd] fuel
      blockItems handles fuel (n :: done)
    else if ← take? .blockEnd then return done.reverse
    else failure

/-- Reads the items of a sequence at the indentation of the mapping around. -/
def bareItems (handles : Handles) : Nat → List Node → Reader (List Node)
  | 0, _ => failure
  | fuel + 1, done => do
    if ← take? .item then
      let n ← orMissing handles true false [.item, .key, .value, .blockEnd] fuel
      bareItems handles fuel (n :: done)
    else return done.reverse

/-- Reads the entries of a block mapping. -/
def blockEntries (handles : Handles) :
    Nat → List (Node × Node) → Reader (List (Node × Node))
  | 0, _ => failure
  | fuel + 1, done => do
    if ← take? .key then
      let k ← orMissing handles true true [.key, .value, .blockEnd] fuel
      let v ← valueOrMissing handles true [.key, .value, .blockEnd] fuel
      blockEntries handles fuel ((k, v) :: done)
    else if ← take? .blockEnd then return done.reverse
    else failure

/-- Reads the items of a bracketed sequence. A marked key makes an item a mapping of one
entry; where its key is missing the token in its place is passed over. -/
def flowItems (handles : Handles) (first : Bool) : Nat → List Node → Reader (List Node)
  | 0, _ => failure
  | fuel + 1, done => do
    if ← take? .flowSeqEnd then return done.reverse
    else
      if !first then guard (← take? .comma)
      if ← take? .key then
        let isMissing ← isNext [.value, .comma, .flowSeqEnd]
        let k ← orMissing handles false false [.value, .comma, .flowSeqEnd] fuel
        if isMissing then skip
        let v ← valueOrMissing handles false [.comma, .flowSeqEnd] fuel
        flowItems handles false fuel (.map none none [(k, v)] :: done)
      else if ← take? .flowSeqEnd then return done.reverse
      else
        let n ← read handles false false fuel
        flowItems handles false fuel (n :: done)

/-- Reads the entries of a bracketed mapping. -/
def flowEntries (handles : Handles) (first : Bool) :
    Nat → List (Node × Node) → Reader (List (Node × Node))
  | 0, _ => failure
  | fuel + 1, done => do
    if ← take? .flowMapEnd then return done.reverse
    else
      if !first then guard (← take? .comma)
      if ← take? .key then
        let k ← orMissing handles false false [.value, .comma, .flowMapEnd] fuel
        let v ← valueOrMissing handles false [.comma, .flowMapEnd] fuel
        flowEntries handles false fuel ((k, v) :: done)
      else if ← take? .flowMapEnd then return done.reverse
      else
        let k ← read handles false false fuel
        flowEntries handles false fuel ((k, missing) :: done)

/-- Reads a node unless one of the tokens `ends` shows that it is missing. -/
def orMissing (handles : Handles) (block bare : Bool) (ends : List Token) : Nat → Reader Node
  | 0 => failure
  | fuel + 1 => do
    if ← isNext ends then return missing
    else read handles block bare fuel

/-- Reads the value of an entry, which may be missing with its mark or without. -/
def valueOrMissing (handles : Handles) (block : Bool) (ends : List Token) : Nat → Reader Node
  | 0 => failure
  | fuel + 1 => do
    if ← take? .value then orMissing handles block block ends fuel
    else return missing

end

/-! ## Documents -/

/-- Takes the directives of a document: what its handles stand for, and whether the
version has been named. A handle may be given once, and the version be 1.1 or 1.2. -/
def directives (handles : Handles) (versioned : Bool) : List Token → Option (Handles × List Token)
  | .version major minor :: rest =>
    if versioned || major ≠ 1 || (minor ≠ 1 && minor ≠ 2) then none
    else directives handles true rest
  | .handle name start :: rest =>
    if (Entries.get? name handles).isSome then none
    else directives (handles ++ [(name, start)]) versioned rest
  | ts => some (handles ++ Handles.standard, ts)

/-- Whether a token shows that a document has no content. -/
def endsDocument : Token → Bool
  | .version .. | .handle .. | .documentStart | .documentEnd => true
  | _ => false

/-- The node of the tokens of a document, if there is one: `some none` if there are no
tokens. Nothing but the end of the document may follow. -/
def ofTokens? (ts : List Token) : Option (Option Node) := do
  match ts with
  | [] => return none
  | t :: _ =>
    let fuel := 3 * ts.length + 3
    let (node, rest) ← if endsDocument t && t ≠ .documentEnd then do
        match ← directives [] false ts with
        | (handles, .documentStart :: rest) =>
          if rest.head?.all endsDocument then pure (missing, ⟨rest, []⟩)
          else read handles true false fuel ⟨rest, []⟩
        | _ => none
      else read Handles.standard true false fuel ⟨ts, []⟩
    if rest.tokens.all (· = .documentEnd) then return some node else none

/-! ## Views -/

mutual

/-- The number of marks and texts in a node: two for a collection, one for any other
node, with those inside. -/
def size : Node → Nat
  | .alias _ | .scalar .. => 1
  | .seq _ _ items => 2 + sizeItems items
  | .map _ _ entries => 2 + sizeEntries entries

def sizeItems : List Node → Nat
  | [] => 0
  | n :: rest => n.size + sizeItems rest

def sizeEntries : List (Node × Node) → Nat
  | [] => 0
  | (k, v) :: rest => k.size + v.size + sizeEntries rest

end

/-- A node in front of a list, with the number of its anchor if it has one. -/
def mark (anchor : Option Nat) (n : Node) (later : List (Nat × Node)) : List (Nat × Node) :=
  anchor.elim later fun a => (a, n) :: later

mutual

/-- The anchored nodes in a node with their numbers, in front of those in `later`. -/
def anchored (later : List (Nat × Node)) : Node → List (Nat × Node)
  | .alias _ => later
  | .scalar a t s p => mark a (.scalar a t s p) later
  | .seq a t items => mark a (.seq a t items) (anchoredItems later items)
  | .map a t entries => mark a (.map a t entries) (anchoredEntries later entries)

def anchoredItems (later : List (Nat × Node)) : List Node → List (Nat × Node)
  | [] => later
  | n :: rest => anchored (anchoredItems later rest) n

def anchoredEntries (later : List (Nat × Node)) : List (Node × Node) → List (Nat × Node)
  | [] => later
  | (k, v) :: rest => anchored (anchored (anchoredEntries later rest) v) k

end

end Node

end Courier.Yaml
