/-!
# Numeric hosts

A host that ends in a number is an IPv4 address of one to four parts in base ten, eight
or sixteen, the last part filling what the others leave. A host in brackets is an IPv6
address of eight groups, of which one run of zeros may be left out; it is written with
the first longest such run left out.
-/

namespace Courier.Url

/-- The parts of a text between the occurrences of a character. -/
def splitParts (sep : Char) : List Char → List (List Char)
  | [] => [[]]
  | c :: cs =>
    if c = sep then [] :: splitParts sep cs
    else
      match splitParts sep cs with
      | [] => [[c]]
      | part :: parts => (c :: part) :: parts

/-- The value of a digit, of either case. -/
def digitValue? (c : Char) : Option Nat :=
  if '0' ≤ c ∧ c ≤ '9' then some (c.toNat - 48)
  else if 'a' ≤ c ∧ c ≤ 'f' then some (c.toNat - 87)
  else if 'A' ≤ c ∧ c ≤ 'F' then some (c.toNat - 55)
  else none

/-- The number that digits spell in a base. -/
def numberIn? (base : Nat) (cs : List Char) : Option Nat :=
  cs.foldl (fun acc c =>
    match acc, digitValue? c with
    | some n, some d => if d < base then some (base * n + d) else none
    | _, _ => none) (some 0)

/-! ## IPv4 -/

/-- The value of one part of an IPv4 address. -/
def ipv4Part? (part : List Char) : Option Nat :=
  match part with
  | [] => none
  | ['0'] => some 0
  | '0' :: 'x' :: digits | '0' :: 'X' :: digits => numberIn? 16 digits
  | '0' :: digits => numberIn? 8 digits
  | digits => numberIn? 10 digits

/-- The parts of a host, without an empty last one. -/
def hostParts (host : List Char) : List (List Char) :=
  let parts := splitParts '.' host
  if parts.getLast? = some [] then parts.dropLast else parts

/-- Whether a host has to be an IPv4 address. -/
def endsInNumber (host : List Char) : Bool :=
  match (hostParts host).getLast? with
  | none => false
  | some [] => false
  | some part => part.all Char.isDigit || (ipv4Part? part).isSome

/-- The 32-bit number of an IPv4 address. -/
def ipv4? (host : List Char) : Option Nat :=
  match (hostParts host).mapM ipv4Part? with
  | none => none
  | some numbers =>
    match numbers.reverse with
    | [] => none
    | last :: init =>
      if 3 < init.length then none
      else if init.any (255 < ·) then none
      else if Nat.pow 256 (4 - init.length) ≤ last then none
      else some (init.reverse.foldl (fun n b => 256 * n + b) 0 * Nat.pow 256 (4 - init.length) + last)

/-- The text of an IPv4 address. -/
def renderIpv4 (n : Nat) : List Char :=
  Nat.toDigits 10 (n / 0x1000000) ++ '.' :: (Nat.toDigits 10 (n / 0x10000 % 0x100) ++ '.' ::
    (Nat.toDigits 10 (n / 0x100 % 0x100) ++ '.' :: Nat.toDigits 10 (n % 0x100)))

/-! ## IPv6 -/

/-- The value of a decimal part of an IPv6 address, which has no leading zero. -/
def ipv6Decimal? (part : List Char) : Option Nat :=
  match part with
  | [] => none
  | '0' :: _ :: _ => none
  | digits =>
    match numberIn? 10 digits with
    | none => none
    | some n => if n < 256 then some n else none

/-- The two groups that a dotted address at the end of an IPv6 address stands for. -/
def ipv6Dotted? (group : List Char) : Option (List Nat) :=
  match (splitParts '.' group).mapM ipv6Decimal? with
  | some [a, b, c, d] => some [256 * a + b, 256 * c + d]
  | _ => none

/-- The value of a group of one to four hexadecimal digits. -/
def ipv6Group? (group : List Char) : Option (List Nat) :=
  if group.isEmpty || 4 < group.length then none else (numberIn? 16 group).map fun n => [n]

/-- The groups of a text; the last one may be a dotted address if `dotted` says so. -/
def ipv6Groups? (dotted : Bool) : List (List Char) → Option (List Nat)
  | [] => some []
  | [group] => if dotted && group.contains '.' then ipv6Dotted? group else ipv6Group? group
  | group :: rest =>
    match ipv6Group? group, ipv6Groups? dotted rest with
    | some a, some b => some (a ++ b)
    | _, _ => none

/-- The texts before and after the first double colon. -/
def splitDouble? : List Char → Option (List Char × List Char)
  | ':' :: ':' :: rest => some ([], rest)
  | c :: rest => (splitDouble? rest).map fun p => (c :: p.1, p.2)
  | [] => none

/-- The groups of a text, none if the text is empty. -/
def ipv6Side? (dotted : Bool) (s : List Char) : Option (List Nat) :=
  if s.isEmpty then some [] else ipv6Groups? dotted (splitParts ':' s)

/-- The eight groups of an IPv6 address. -/
def ipv6? (s : List Char) : Option (List Nat) :=
  match splitDouble? s with
  | none =>
    match ipv6Side? true s with
    | some groups => if groups.length = 8 then some groups else none
    | none => none
  | some (left, right) =>
    match ipv6Side? false left, ipv6Side? true right with
    | some a, some b =>
      if a.length + b.length < 8 then
        some (a ++ List.replicate (8 - a.length - b.length) 0 ++ b)
      else none
    | _, _ => none

/-- The number of zeros at the head of a list. -/
def zeroRun : List Nat → Nat
  | 0 :: rest => zeroRun rest + 1
  | _ => 0

/-- Start and length of the first longest run of zeros from the `i`-th group on. -/
def longestZeros (i : Nat) : List Nat → Nat × Nat
  | [] => (i, 0)
  | g :: rest =>
    let here := zeroRun (g :: rest)
    let later := longestZeros (i + 1) rest
    if later.2 ≤ here then (i, here) else later

/-- Groups joined by colons. -/
def joinGroups (groups : List Nat) : List Char :=
  [':'].intercalate (groups.map (Nat.toDigits 16))

/-- The text of an IPv6 address. -/
def renderIpv6 (groups : List Nat) : List Char :=
  let run := longestZeros 0 groups
  if run.2 < 2 then joinGroups groups
  else joinGroups (groups.take run.1) ++ ':' :: ':' :: joinGroups (groups.drop (run.1 + run.2))

end Courier.Url
