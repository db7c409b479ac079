import Courier.Text.Blank
import Courier.Text.Utf8

/-!
# Response bodies

A body comes in chunks, perhaps after its length was announced, and may break off
instead of ending. There are three ways to read one: `drain` throws everything away,
`readCapped` keeps the first bytes up to a cap, and `readLimited` wants the whole body
and gives up as soon as it is known to be too long. Each says which chunks are left
unread; only the last one leaves any.

`excerpt` makes a text of the bytes kept from an error body.
-/

namespace Courier

/-- A part of a body as it arrives. -/
abbrev Chunk := List UInt8

/-- The body of a response. -/
structure Body where
  chunks : List Chunk
  /-- The number of bytes, if it was announced. -/
  announced : Option Nat
  /-- Whether the stream breaks after the last chunk. -/
  broken : Bool
deriving Repr

namespace Body

/-- What is left after reading and discarding every chunk. -/
def drain : List Chunk → List Chunk
  | [] => []
  | _ :: rest => drain rest

/-- A buffer with as much of a chunk as fits below the cap. -/
def keep (cap : Nat) (buffer : List UInt8) (chunk : Chunk) : List UInt8 :=
  buffer ++ chunk.take (cap - buffer.length)

/-- The buffer after every chunk, and what is left unread. A break ends the reading
like the end of the body. -/
def readCapped (cap : Nat) (buffer : List UInt8) : List Chunk → List UInt8 × List Chunk
  | [] => (buffer, [])
  | chunk :: rest => readCapped cap (keep cap buffer chunk) rest

/-- What comes of reading a whole body. -/
inductive Limited where
  /-- There are more bytes than allowed. -/
  | tooLong
  /-- The stream broke with no more bytes than allowed. -/
  | broken
  | whole (bytes : List UInt8)
deriving DecidableEq, Repr

/-- The buffer after every chunk unless one exceeds the limit, and what is left
unread. -/
def readLimitedChunks (limit : Nat) (broken : Bool) (buffer : List UInt8) :
    List Chunk → Limited × List Chunk
  | [] => (if broken then .broken else .whole buffer, [])
  | chunk :: rest =>
    if limit < buffer.length + chunk.length then (.tooLong, rest)
    else readLimitedChunks limit broken (buffer ++ chunk) rest

/-- The whole body if it has at most `limit` bytes, and what is left unread. A body
announced as longer is not read at all. -/
def readLimited (limit : Nat) (b : Body) : Limited × List Chunk :=
  if b.announced.any (limit < ·) then (.tooLong, b.chunks)
  else readLimitedChunks limit b.broken [] b.chunks

/-- The text of bytes from a body that may be cut off anywhere, without the blanks
around it. -/
def excerpt (bytes : List UInt8) : String :=
  String.ofList (Text.trimList (Utf8.decodeLossy bytes))

end Body

end Courier
