/-!
# Punycode

A label outside ASCII is written as its ASCII characters, a hyphen if there are any, and
the places of the others: for each in ascending order the distance from the one before,
as a numeral of digits to base 36 whose thresholds adapt to what has been written.

The reader takes one numeral after the other off the text; each leaves a shorter rest.
-/

namespace Courier.Url.Punycode

/-- The character of a digit below 36. -/
def digitChar (d : Nat) : Char :=
  if d < 26 then Char.ofNat (d + 97) else Char.ofNat (d + 22)

/-- The value of a digit, of either case. -/
def digit? (c : Char) : Option Nat :=
  let n := c.toNat
  if 97 ≤ n ∧ n ≤ 122 then some (n - 97)
  else if 65 ≤ n ∧ n ≤ 90 then some (n - 65)
  else if 48 ≤ n ∧ n ≤ 57 then some (n - 22)
  else none

/-- The least digit that another one follows, at a place of a numeral. -/
def threshold (place bias : Nat) : Nat :=
  min 26 (max 1 (place - bias))

/-- Halves `delta` by 35 until it is at most 455, and counts 36 for each time. -/
def settle (delta count : Nat) : Nat × Nat :=
  if 455 < delta then settle (delta / 35) (count + 36) else (delta, count)
termination_by delta
decreasing_by exact Nat.div_lt_self (by omega) (by omega)

/-- The bias after a numeral of value `delta`, with `count` characters in place. -/
def adapt (delta count : Nat) (first : Bool) : Nat :=
  let d := if first then delta / 700 else delta / 2
  let s := settle (d + d / count) 0
  s.2 + 36 * s.1 / (s.1 + 38)

/-! ## Writing -/

/-- The numeral of a value. -/
def numeral (bias place value : Nat) : List Char :=
  let t := threshold place bias
  if value < t then [digitChar value]
  else digitChar (t + (value - t) % (36 - t)) :: numeral bias (place + 36) ((value - t) / (36 - t))
termination_by value
decreasing_by
  have h₁ : 1 ≤ threshold place bias := by unfold threshold; omega
  exact Nat.lt_of_le_of_lt (Nat.div_le_self _ _) (by omega)

/-- What the writer has done. -/
structure Writer where
  output : List Char
  delta : Nat
  bias : Nat
  /-- The number of characters in place. -/
  count : Nat

/-- One character of the label, while the characters `n` are put in place. -/
def Writer.see (basic n : Nat) (w : Writer) (c : Char) : Writer :=
  if c.toNat < n then { w with delta := w.delta + 1 }
  else if c.toNat = n then
    { output := w.output ++ numeral w.bias 36 w.delta
      delta := 0
      bias := adapt w.delta (w.count + 1) (w.count == basic)
      count := w.count + 1 }
  else w

/-- The characters of a label outside ASCII, each put in place in ascending order. -/
def Writer.putAll (label : List Char) (basic : Nat) (w : Writer) (start : Nat) : List Nat → Writer
  | [] => w
  | n :: rest =>
    let w := { w with delta := w.delta + (n - start) * (w.count + 1) }
    let w := label.foldl (Writer.see basic n) w
    Writer.putAll label basic { w with delta := w.delta + 1 } (n + 1) rest

/-- A list of numbers with one more in its place, once. -/
def insertOnce (n : Nat) : List Nat → List Nat
  | [] => [n]
  | m :: rest => if n < m then n :: m :: rest else if n = m then m :: rest else m :: insertOnce n rest

/-- The code of a label. -/
def encode (label : List Char) : List Char :=
  let basic := label.filter (·.toNat < 128)
  let others := (label.filter (128 ≤ ·.toNat)).foldl (fun ns c => insertOnce c.toNat ns) []
  let writer : Writer := ⟨[], 0, 72, basic.length⟩
  basic ++ (if basic.isEmpty then [] else ['-'])
    ++ (Writer.putAll label basic.length writer 128 others).output

/-! ## Reading -/

/-- The value of the numeral at the head of a text, and the rest. -/
def numeral? (bias place weight value : Nat) : List Char → Option (Nat × List Char)
  | [] => none
  | c :: rest =>
    match digit? c with
    | none => none
    | some d =>
      let t := threshold place bias
      let value := value + d * weight
      if d < t then some (value, rest)
      else numeral? bias (place + 36) (weight * (36 - t)) value rest

theorem numeral?_shorter {bias place weight value : Nat} {cs : List Char} {r : Nat × List Char}
    (h : numeral? bias place weight value cs = some r) : r.2.length < cs.length := by
  induction cs generalizing place weight value with
  | nil => simp [numeral?] at h
  | cons c rest ih =>
    simp only [numeral?] at h
    split at h
    · simp at h
    · split at h
      · simp only [Option.some.injEq] at h
        subst h
        simp
      · exact Nat.lt_succ_of_lt (ih h)

/-- The characters of a code after its ASCII part, put in place one by one. -/
def place (label : List Char) (n index bias : Nat) (first : Bool) (cs : List Char) :
    Option (List Char) :=
  if cs.isEmpty then some label
  else
    match h : numeral? bias 36 1 0 cs with
    | none => none
    | some (delta, rest) =>
      let count := label.length + 1
      let index := index + delta
      let n := n + index / count
      if n < 0x110000 ∧ ¬ (0xD800 ≤ n ∧ n < 0xE000) then
        let i := index % count
        place (label.take i ++ Char.ofNat n :: label.drop i) n (i + 1)
          (adapt delta count first) false rest
      else none
termination_by cs.length
decreasing_by exact numeral?_shorter h

/-- The text after the last hyphen, and the text before it. -/
def splitLast (cs : List Char) : List Char × List Char :=
  let tail := (cs.reverse.takeWhile (· != '-')).reverse
  (tail, cs.take (cs.length - tail.length - 1))

/-- The label of a code. -/
def decode? (code : List Char) : Option (List Char) :=
  let parts := if code.contains '-' then splitLast code else (code, [])
  if parts.2.all (·.toNat < 128) then place parts.2 128 0 72 true parts.1 else none

end Courier.Url.Punycode
