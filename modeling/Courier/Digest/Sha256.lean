import Courier.Text.Hex

/-!
# SHA-256

The message is padded to whole blocks of 64 bytes, which change a state of eight words one
after the other. `digest` is the last state as bytes.
-/

namespace Courier.Sha256

/-- The fractional parts of the cube roots of the first 64 primes. -/
def roundConstants : List UInt32 :=
  [0x428a2f98, 0x71374491, 0xb5c0fbcf, 0xe9b5dba5, 0x3956c25b, 0x59f111f1, 0x923f82a4, 0xab1c5ed5,
    0xd807aa98, 0x12835b01, 0x243185be, 0x550c7dc3, 0x72be5d74, 0x80deb1fe, 0x9bdc06a7, 0xc19bf174,
    0xe49b69c1, 0xefbe4786, 0x0fc19dc6, 0x240ca1cc, 0x2de92c6f, 0x4a7484aa, 0x5cb0a9dc, 0x76f988da,
    0x983e5152, 0xa831c66d, 0xb00327c8, 0xbf597fc7, 0xc6e00bf3, 0xd5a79147, 0x06ca6351, 0x14292967,
    0x27b70a85, 0x2e1b2138, 0x4d2c6dfc, 0x53380d13, 0x650a7354, 0x766a0abb, 0x81c2c92e, 0x92722c85,
    0xa2bfe8a1, 0xa81a664b, 0xc24b8b70, 0xc76c51a3, 0xd192e819, 0xd6990624, 0xf40e3585, 0x106aa070,
    0x19a4c116, 0x1e376c08, 0x2748774c, 0x34b0bcb5, 0x391c0cb3, 0x4ed8aa4a, 0x5b9cca4f, 0x682e6ff3,
    0x748f82ee, 0x78a5636f, 0x84c87814, 0x8cc70208, 0x90befffa, 0xa4506ceb, 0xbef9a3f7, 0xc67178f2]

/-- The eight words that the blocks change. -/
structure State where
  (a b c d e f g h : UInt32)
deriving DecidableEq

/-- The fractional parts of the square roots of the first eight primes. -/
def State.start : State :=
  ⟨0x6a09e667, 0xbb67ae85, 0x3c6ef372, 0xa54ff53a,
    0x510e527f, 0x9b05688c, 0x1f83d9ab, 0x5be0cd19⟩

/-- The words of a state in order. -/
def State.words (s : State) : List UInt32 :=
  [s.a, s.b, s.c, s.d, s.e, s.f, s.g, s.h]

/-- Word by word sum. -/
def State.add (s t : State) : State :=
  ⟨s.a + t.a, s.b + t.b, s.c + t.c, s.d + t.d, s.e + t.e, s.f + t.f, s.g + t.g, s.h + t.h⟩

/-! ## Words -/

/-- A word turned right by `n` bits, for `n` from 1 to 31. -/
def rotate (n : UInt32) (x : UInt32) : UInt32 :=
  (x >>> n) ||| (x <<< (32 - n))

/-- The word of four bytes, the most significant first. -/
def wordOfBytes (a b c d : UInt8) : UInt32 :=
  (a.toUInt32 <<< 24) ||| (b.toUInt32 <<< 16) ||| (c.toUInt32 <<< 8) ||| d.toUInt32

/-- The four bytes of a word, the most significant first. -/
def bytesOfWord (x : UInt32) : List UInt8 :=
  [(x >>> 24).toUInt8, (x >>> 16).toUInt8, (x >>> 8).toUInt8, x.toUInt8]

/-- The words of bytes, four to a word. -/
def wordsOfBytes : List UInt8 → List UInt32
  | a :: b :: c :: d :: rest => wordOfBytes a b c d :: wordsOfBytes rest
  | _ => []

/-! ## Blocks -/

/-- The next word of a schedule, from the words before, latest first. -/
def nextWord (ws : List UInt32) : UInt32 :=
  let x := ws.getD 14 0
  let y := ws.getD 1 0
  ws.getD 15 0 + (rotate 7 x ^^^ rotate 18 x ^^^ (x >>> 3)) + ws.getD 6 0
    + (rotate 17 y ^^^ rotate 19 y ^^^ (y >>> 10))

/-- The schedule of a block of sixteen words: the words themselves and `n` more, latest
first. -/
def schedule (block : List UInt32) : Nat → List UInt32
  | 0 => block.reverse
  | n + 1 => let ws := schedule block n; nextWord ws :: ws

/-- One round, with its constant and its word of the schedule. -/
def State.round (s : State) (k w : UInt32) : State :=
  let sum := s.h + (rotate 6 s.e ^^^ rotate 11 s.e ^^^ rotate 25 s.e)
    + ((s.e &&& s.f) ^^^ (~~~s.e &&& s.g)) + k + w
  let more := (rotate 2 s.a ^^^ rotate 13 s.a ^^^ rotate 22 s.a)
    + ((s.a &&& s.b) ^^^ (s.a &&& s.c) ^^^ (s.b &&& s.c))
  ⟨sum + more, s.a, s.b, s.c, s.d + sum, s.e, s.f, s.g⟩

/-- The state after a block of sixteen words. -/
def State.compress (s : State) (block : List UInt32) : State :=
  s.add ((roundConstants.zip (schedule block 48).reverse).foldl (fun s p => s.round p.1 p.2) s)

/-- The state after the whole blocks of a list of words. -/
def State.absorb (s : State) : Nat → List UInt32 → State
  | 0, _ => s
  | n + 1, ws => (s.compress (ws.take 16)).absorb n (ws.drop 16)

/-! ## Messages -/

/-- A message padded to whole blocks: a bit that is set, bits that are not, and the length
in bits as eight bytes. -/
def pad (message : List UInt8) : List UInt8 :=
  let size := message.length
  let bits := 8 * size
  message ++ 0x80 :: (List.replicate ((119 - size % 64) % 64) 0
    ++ (List.range 8).reverse.map fun i => UInt8.ofNat (bits / Nat.pow 256 i))

/-- The digest of a message, 32 bytes. -/
def digest (message : List UInt8) : List UInt8 :=
  let ws := wordsOfBytes (pad message)
  (State.start.absorb (ws.length / 16) ws).words.flatMap bytesOfWord

/-- The digest of a message in hexadecimal digits. -/
def hexDigest (message : List UInt8) : String :=
  String.ofList ((digest message).flatMap Text.hexByte)

example : hexDigest [] =
    "e3b0c44298fc1c149afbf4c8996fb92427ae41e4649b934ca495991b7852b855" := by
  decide +kernel

example : hexDigest ("abc".toList.map fun c => UInt8.ofNat c.toNat) =
    "ba7816bf8f01cfea414140de5dae2223b00361a396177a9cb410ff61f20015ad" := by
  decide +kernel

-- A message that takes two blocks.
example : hexDigest ("abcdbcdecdefdefgefghfghighijhijkijkljklmklmnlmnomnopnopq".toList.map
      fun c => UInt8.ofNat c.toNat) =
    "248d6a61d20638b8e5c026930c3e6039a33ce45964ff2167f6ecedd419db06c1" := by
  decide +kernel

end Courier.Sha256
