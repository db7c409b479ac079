import Courier.Url.Domain
import Courier.Url.Escape

/-!
# Addresses

`Url.parse` reads an absolute address and `Url.render` writes it in its normal form. The
schemes of the web are special: they have a host, a path and perhaps a default port, and
take a backslash for a slash. An address of another scheme may have no authority, and if
its path does not start with a slash it has no path that could be extended.

Blanks and controls around an address, and tabs and line ends anywhere in it, do not
count.

How the name of a host is written in ASCII is a parameter of `Url.parseWith`; `Url.parse`
is the reader with `Url.domainToAscii`.
-/

namespace Courier

/-- The host of an address. -/
inductive Url.Host where
  /-- No host, or an empty one. -/
  | empty
  | domain (name : List Char)
  | ipv4 (n : Nat)
  | ipv6 (groups : List Nat)
deriving DecidableEq, Repr

/-- Who serves an address. -/
structure Url.Authority where
  username : List Char
  /-- The password, if there is one that is not empty. -/
  password : Option (List Char)
  host : Url.Host
  /-- The port number, if it is not the default of the scheme. -/
  portNumber : Option Nat
deriving DecidableEq, Repr

/-- The path of an address. -/
inductive Url.Path where
  /-- A path that is no sequence of segments. -/
  | flat (text : List Char)
  | segments (parts : List (List Char))
deriving DecidableEq, Repr

/-- An absolute address. -/
structure Url where
  scheme : List Char
  authority : Option Url.Authority
  path : Url.Path
  query : Option (List Char)
  fragment : Option (List Char)
deriving DecidableEq, Repr

namespace Url

/-- Why a text is no address. -/
inductive ParseError where
  | emptyHost
  | badDomain
  | badPort
  | badIpv4
  | badIpv6
  | badHostCharacter
  | relative
deriving DecidableEq, Repr

/-- The wording of why a text is no address. -/
def ParseError.message : ParseError → String
  | .emptyHost => "empty host"
  | .badDomain => "invalid international domain name"
  | .badPort => "invalid port number"
  | .badIpv4 => "invalid IPv4 address"
  | .badIpv6 => "invalid IPv6 address"
  | .badHostCharacter => "invalid domain character"
  | .relative => "relative URL without a base"

/-! ## Schemes -/

/-- The kinds of schemes. -/
inductive SchemeKind where
  /-- The scheme of local files. -/
  | file
  /-- A scheme of the web. -/
  | web
  | other
deriving DecidableEq, Repr

/-- The kind of a scheme. -/
def schemeKind (scheme : List Char) : SchemeKind :=
  if scheme = "file".toList then .file
  else if ["http", "https", "ws", "wss", "ftp"].any (·.toList = scheme) then .web
  else .other

/-- Whether a kind of scheme is special. -/
def SchemeKind.isSpecial (k : SchemeKind) : Bool :=
  k != .other

/-- The port number that goes without saying. -/
def defaultPort (scheme : List Char) : Option Nat :=
  if scheme = "http".toList ∨ scheme = "ws".toList then some 80
  else if scheme = "https".toList ∨ scheme = "wss".toList then some 443
  else if scheme = "ftp".toList then some 21
  else none

/-- Whether a character may stand in a scheme after its first letter. -/
def isSchemeChar (c : Char) : Bool :=
  c.isAlphanum || c == '+' || c == '-' || c == '.'

/-- The scheme at the head of a text, in lower case, and what follows its colon. -/
def splitScheme? (cs : List Char) : Option (List Char × List Char) :=
  let name := cs.takeWhile isSchemeChar
  match cs.dropWhile isSchemeChar with
  | ':' :: rest =>
    if name.head?.any Char.isAlpha then some (name.map Char.toLower, rest) else none
  | _ => none

section

variable (form : NameForm)

/-! ## Hosts -/

/-- The host that a text between special delimiters names. -/
def parseHost (k : SchemeKind) (text : List Char) : Except ParseError Host :=
  match text with
  | '[' :: rest =>
    if rest.getLast? = some ']' then
      match ipv6? rest.dropLast with
      | some groups => .ok (.ipv6 groups)
      | none => .error .badIpv6
    else .error .badIpv6
  | _ =>
    if k.isSpecial then
      match form (Utf8.decodeLossy (unescape (Utf8.encode text))) with
      | none => .error .badDomain
      | some [] => .error .emptyHost
      | some name =>
        if endsInNumber name then
          match ipv4? name with
          | some n => .ok (.ipv4 n)
          | none => .error .badIpv4
        else .ok (.domain name)
    else if text.any (fun c => isForbidden c && c != '%' && (0x20 ≤ c.toNat || c.toNat == 0) && c.toNat != 0x7F)
    then .error .badHostCharacter
    else if text.isEmpty then .ok .empty
    else .ok (.domain (Reserve.control.write text))

/-- The text of a host. -/
def Host.render : Host → List Char
  | .empty => []
  | .domain name => name
  | .ipv4 n => renderIpv4 n
  | .ipv6 groups => '[' :: (renderIpv6 groups ++ [']'])

/-- Whether a character ends the authority of an address. -/
def endsAuthority (k : SchemeKind) (c : Char) : Bool :=
  c == '/' || c == '?' || c == '#' || (k.isSpecial && c == '\\')

/-- A text up to the first colon outside brackets, and the rest. -/
def splitHost (bracketed : Bool) : List Char → List Char × List Char
  | [] => ([], [])
  | c :: rest =>
    if c = ':' ∧ bracketed = false then ([], c :: rest)
    else
      let bracketed := if c = '[' then true else if c = ']' then false else bracketed
      let r := splitHost bracketed rest
      (c :: r.1, r.2)

/-- The port number after the colon of a host: `none` if there are no digits. -/
def parsePort (digits : List Char) : Except ParseError (Option Nat) :=
  if digits.all Char.isDigit then
    if digits.isEmpty then .ok none
    else
      match numberIn? 10 digits with
      | some n => if n < 65536 then .ok (some n) else .error .badPort
      | none => .error .badPort
  else .error .badPort

/-- The user information of an authority: what comes before the last `@`. -/
def splitUserinfo (authority : List Char) : Option (List Char) × List Char :=
  if authority.contains '@' then
    let host := (authority.reverse.takeWhile (· != '@')).reverse
    (some (authority.take (authority.length - host.length - 1)), host)
  else (none, authority)

/-- The authority that a text names. An empty one with an `@` may only stand at the end of
the address. -/
def parseAuthority (scheme : List Char) (k : SchemeKind) (text : List Char) (atEnd : Bool) :
    Except ParseError Authority := do
  let parts := splitUserinfo text
  let userinfo := parts.1.getD []
  if parts.1 = some [] ∧ parts.2 = [] ∧ atEnd = false then throw .emptyHost
  let username := Reserve.userinfo.write (userinfo.takeWhile (· != ':'))
  let password :=
    match userinfo.dropWhile (· != ':') with
    | _ :: c :: rest => some (Reserve.userinfo.write (c :: rest))
    | _ => none
  let hostAndPort := splitHost false parts.2
  if hostAndPort.1.isEmpty && (k.isSpecial || !hostAndPort.2.isEmpty) then throw .emptyHost
  let host ← parseHost form k hostAndPort.1
  let portNumber ← parsePort (hostAndPort.2.drop 1)
  if host = .empty ∧ (username ≠ [] ∨ password.isSome) then throw .emptyHost
  return {
    username, password, host
    portNumber := if portNumber = defaultPort scheme then none else portNumber }

/-! ## Paths -/

/-- A segment that stands for the one above. -/
def isDoubleDot (segment : List Char) : Bool :=
  let s := segment.map Char.toLower
  ["..", ".%2e", "%2e.", "%2e%2e"].any (·.toList = s)

/-- A segment that stands for nothing. -/
def isSingleDot (segment : List Char) : Bool :=
  let s := segment.map Char.toLower
  [".", "%2e"].any (·.toList = s)

/-- Whether a segment is the letter of a drive, with either mark after it. -/
def isDrive (segment : List Char) : Bool :=
  match segment with
  | [c, mark] => c.isAlpha && (mark == ':' || mark == '|')
  | _ => false

/-- The segments of a path, latest first, without the last one. The drive at the start
of a file path stays. -/
def shorten (k : SchemeKind) : List (List Char) → List (List Char)
  | [] => []
  | [s] => if k = .file ∧ isDrive s then [s] else []
  | _ :: rest => rest

/-- The segments of a path, latest first, after one more, the last one or not. -/
def addSegment (k : SchemeKind) (done : List (List Char)) (segment : List Char) (last : Bool) :
    List (List Char) :=
  if isDoubleDot segment then
    if last then [] :: shorten k done else shorten k done
  else if isSingleDot segment then
    if last then [] :: done else done
  else if k = .file ∧ done.isEmpty ∧ isDrive segment then
    (segment.take 1 ++ [':']) :: done
  else segment :: done

/-- The segments of a path, latest first, from its parts between slashes. -/
def addSegments (k : SchemeKind) (done : List (List Char)) :
    List (List Char) → List (List Char)
  | [] => done
  | [segment] => addSegment k done segment true
  | segment :: rest => addSegments k (addSegment k done segment false) rest

/-- The segments of a path given without its first slash. Empty segments at the start of
a file path do not count. -/
def parseSegments (k : SchemeKind) (text : List Char) : List (List Char) :=
  let text := if k.isSpecial then text.map fun c => if c = '\\' then '/' else c else text
  let parts := (splitParts '/' text).map Reserve.path.write
  let segments := (addSegments k [] parts).reverse
  if k = .file then
    match segments.dropWhile List.isEmpty with
    | [] => [[]]
    | segments => segments
  else segments

/-- The path after an authority. A special address has one in any case. -/
def parsePath (k : SchemeKind) (text : List Char) : Path :=
  match text with
  | [] => if k.isSpecial then .segments [[]] else .segments []
  | '/' :: rest => .segments (parseSegments k rest)
  | '\\' :: rest =>
    if k.isSpecial then .segments (parseSegments k rest) else .segments (parseSegments k text)
  | _ => .segments (parseSegments k text)

/-! ## Addresses -/

/-- A text up to its query or fragment, the query and the fragment. -/
def splitTail (k : SchemeKind) (cs : List Char) :
    List Char × Option (List Char) × Option (List Char) :=
  let isPath (c : Char) : Bool := c != '?' && c != '#'
  let fragmentOf (cs : List Char) : Option (List Char) :=
    match cs with
    | '#' :: rest => some (Reserve.fragment.write rest)
    | _ => none
  let head := cs.takeWhile isPath
  match cs.dropWhile isPath with
  | '?' :: rest =>
    let set := if k.isSpecial then Reserve.specialQuery else Reserve.query
    (head, some (set.write (rest.takeWhile (· != '#'))), fragmentOf (rest.dropWhile (· != '#')))
  | rest => (head, none, fragmentOf rest)

/-- The address of a scheme with an authority, given without its two slashes. -/
def parseAfterSlashes (scheme : List Char) (k : SchemeKind) (cs : List Char) :
    Except ParseError Url := do
  let parts := splitTail k cs
  let text := parts.1.takeWhile (!endsAuthority k ·)
  let authority ← parseAuthority form scheme k text (text.length == cs.length)
  return {
    scheme
    authority := some authority
    path := parsePath k (parts.1.dropWhile (!endsAuthority k ·))
    query := parts.2.1
    fragment := parts.2.2 }

/-- The host of a file, which may be missing; the local one is. -/
def parseFileHost (text : List Char) : Except ParseError Host :=
  if text.isEmpty then .ok .empty
  else
    match parseHost form .file text with
    | .ok (.domain name) => .ok (if name = "localhost".toList then .empty else .domain name)
    | r => r

/-- The address of a file, given without its scheme. -/
def parseFile (cs : List Char) : Except ParseError Url := do
  let parts := splitTail .file cs
  let isSlash (c : Char) : Bool := c == '/' || c == '\\'
  let make (host : Host) (text : List Char) : Url := {
    scheme := "file".toList
    authority := some ⟨[], none, host, none⟩
    path := .segments (parseSegments .file text)
    query := parts.2.1
    fragment := parts.2.2 }
  match parts.1 with
  | a :: b :: rest =>
    if isSlash a && isSlash b then
      let name := rest.takeWhile (!isSlash ·)
      if isDrive name then return make .empty rest
      else
        let host ← parseFileHost form name
        return make host ((rest.dropWhile (!isSlash ·)).drop 1)
    else if isSlash a then return make .empty (b :: rest)
    else return make .empty (a :: b :: rest)
  | [a] => return make .empty (if isSlash a then [] else [a])
  | [] => return make .empty []

/-- The characters of a text that count in an address. -/
def significant (cs : List Char) : List Char :=
  (Text.dropEndWhile (·.toNat ≤ 0x20) (cs.dropWhile (·.toNat ≤ 0x20))).filter fun c =>
    c != '\t' && c != '\n' && c != '\r'

/-- The address that a text is, host names being written in a certain form. -/
def parseWith (s : String) : Except ParseError Url :=
  match splitScheme? (significant s.toList) with
  | none => .error .relative
  | some (scheme, rest) =>
    let k := schemeKind scheme
    match k with
    | .file => parseFile form rest
    | .web => parseAfterSlashes form scheme k (rest.dropWhile fun c => c == '/' || c == '\\')
    | .other =>
      match rest with
      | '/' :: '/' :: rest => parseAfterSlashes form scheme k rest
      | '/' :: rest =>
        let parts := splitTail k rest
        .ok ⟨scheme, none, .segments (parseSegments k parts.1), parts.2.1, parts.2.2⟩
      | rest =>
        let parts := splitTail k rest
        .ok ⟨scheme, none, .flat (Reserve.control.write parts.1), parts.2.1, parts.2.2⟩

end

/-- The address that a text is. -/
def parse (s : String) : Except ParseError Url :=
  parseWith domainToAscii s

/-- The text of an authority. -/
def Authority.render (a : Authority) : List Char :=
  let userinfo := a.username ++ (match a.password with | none => [] | some p => ':' :: p)
  (if userinfo.isEmpty then [] else userinfo ++ ['@']) ++ a.host.render
    ++ (match a.portNumber with | none => [] | some n => ':' :: Nat.toDigits 10 n)

/-- The text of a path. -/
def Path.render : Path → List Char
  | .flat text => text
  | .segments parts => parts.flatMap fun s => '/' :: s

/-- The text of an address. A path that could be taken for an authority gets a dot in
front. -/
def render (u : Url) : List Char :=
  let authority :=
    match u.authority with
    | some a => '/' :: '/' :: a.render
    | none =>
      match u.path.render with
      | '/' :: '/' :: _ => ['/', '.']
      | _ => []
  u.scheme ++ ':' :: (authority ++ u.path.render
    ++ (match u.query with | none => [] | some q => '?' :: q)
    ++ (match u.fragment with | none => [] | some f => '#' :: f))

/-- The text of an address as a string. -/
def toText (u : Url) : String :=
  String.ofList u.render

/-- What a request to the address asks its host for. -/
def target (u : Url) : String :=
  String.ofList (u.path.render ++ (match u.query with | none => [] | some q => '?' :: q))

/-- Whether the address has a path that can be extended. -/
def hasPath (u : Url) : Bool :=
  match u.path with
  | .flat _ => false
  | .segments _ => true

end Url

end Courier
