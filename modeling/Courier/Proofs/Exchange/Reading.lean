import Courier.Proofs.Exchange.Body
import Mathlib.Data.List.Infix
import Mathlib.Logic.Relation

/-!
# Reading a body chunk by chunk

A reader takes one chunk a turn (`Turn`), and readers differ in what they make of it : they throw
it away, keep as much of it as fits, or give up where it does not fit (`discarding`, `capped`,
`limited`). Each reading is a sequence of such turns up to where no more are taken
(`turns_drain`, `turns_readCapped`, `exists_turns_readLimitedChunks`).

What holds at the start and is kept by every turn holds wherever a reader comes
(`Turns.exists_read`). So the bytes that a reader with a bound has kept are at every place the
first that arrive, and no more than the bound (`Turns.within_capped`, `Turns.within_limited`).
With what the readings give in the end this is `reading_bounded`.
-/

namespace Courier.Body

/-! ## Turns -/

/-- A reader on its way through a body. -/
structure Reader where
  /-- The bytes in its buffer. -/
  kept : List UInt8
  unread : List Chunk

/-- What becomes of a buffer with the next chunk; nothing if the reader gives up. -/
abbrev Intake := List UInt8 → Chunk → Option (List UInt8)

/-- Every chunk is thrown away. -/
def discarding : Intake := fun kept _ => some kept

/-- As much of a chunk is kept as fits below the cap. -/
def capped (cap : Nat) : Intake := fun kept chunk => some (keep cap kept chunk)

/-- A chunk is kept whole unless it goes over the limit. -/
def limited (limit : Nat) : Intake := fun kept chunk =>
  if limit < kept.length + chunk.length then none else some (kept ++ chunk)

/-- A reader takes the next chunk. -/
inductive Turn (intake : Intake) : Reader → Reader → Prop where
  | take {kept kept' : List UInt8} {chunk : Chunk} (h : intake kept chunk = some kept')
    (rest : List Chunk) : Turn intake ⟨kept, chunk :: rest⟩ ⟨kept', rest⟩

/-- A reader comes to a place by any number of turns. -/
def Turns (intake : Intake) : Reader → Reader → Prop :=
  Relation.ReflTransGen (Turn intake)

/-- A reader with all of a body before it. -/
def start (b : Body) : Reader :=
  ⟨[], b.chunks⟩

variable {intake : Intake} {limit cap : Nat} {b : Body} {r : Reader}

/-- What every turn keeps up holds of what has been read and kept at every place, if it holds of
nothing. -/
theorem Turns.exists_read {P : List Chunk → List UInt8 → Prop}
    (hturn : ∀ read kept chunk kept', P read kept → intake kept chunk = some kept' →
      P (read ++ [chunk]) kept')
    (hstart : P [] []) (h : Turns intake b.start r) :
    ∃ read, read ++ r.unread = b.chunks ∧ P read r.kept := by
  induction h with
  | refl => exact ⟨[], rfl, hstart⟩
  | tail _ hlast ih =>
    obtain ⟨read, hread, hinv⟩ := ih
    cases hlast with
    | @take kept kept' chunk h rest =>
      exact ⟨read ++ [chunk], by simpa using hread, hturn read kept chunk kept' hinv h⟩

/-! ## What is kept on the way -/

/-- No more bytes are kept than the limit, and these are the first that arrive. -/
def Reader.Within (limit : Nat) (b : Body) (r : Reader) : Prop :=
  r.kept.length ≤ limit ∧ r.kept <+: b.received

theorem Turns.within_capped (h : Turns (capped cap) b.start r) : r.Within cap b := by
  have hturn : ∀ (read : List Chunk) (kept : List UInt8) (chunk : Chunk) (kept' : List UInt8),
      kept = read.flatten.take cap → capped cap kept chunk = some kept' →
        kept' = (read ++ [chunk]).flatten.take cap := by
    rintro read kept chunk kept' rfl hturn
    have hfits : (read.flatten.take cap).length ≤ cap := List.length_take_le _ _
    rw [← Option.some.inj hturn, keep_eq_take hfits, take_append_take, List.flatten_concat]
  obtain ⟨read, hread, hkept⟩ := Turns.exists_read hturn List.take_nil.symm h
  rw [Reader.Within, hkept]
  exact ⟨List.length_take_le _ _, (List.take_prefix _ _).trans (List.IsPrefix.flatten ⟨_, hread⟩)⟩

theorem Turns.within_limited (h : Turns (limited limit) b.start r) : r.Within limit b := by
  have hturn : ∀ (read : List Chunk) (kept : List UInt8) (chunk : Chunk) (kept' : List UInt8),
      kept = read.flatten ∧ kept.length ≤ limit → limited limit kept chunk = some kept' →
        kept' = (read ++ [chunk]).flatten ∧ kept'.length ≤ limit := by
    rintro read kept chunk kept' ⟨rfl, -⟩ hturn
    obtain ⟨hfits, hkept⟩ := Option.ite_none_left_eq_some.1 hturn
    obtain rfl := Option.some.inj hkept
    refine ⟨List.flatten_concat.symm, ?_⟩
    rw [List.length_append]
    exact Nat.not_lt.1 hfits
  obtain ⟨read, hread, hkept, hfits⟩ := Turns.exists_read hturn ⟨rfl, Nat.zero_le _⟩ h
  exact ⟨hfits, hkept ▸ List.IsPrefix.flatten ⟨_, hread⟩⟩

/-! ## Where the turns end -/

/-- Throwing chunks away ends behind the last one. -/
theorem turns_drain : ∀ (kept : List UInt8) (chunks : List Chunk),
    Turns discarding ⟨kept, chunks⟩ ⟨kept, []⟩ ∧ drain chunks = []
  | _, [] => ⟨.refl, rfl⟩
  | kept, _ :: rest =>
    have ⟨hturns, hdrain⟩ := turns_drain kept rest
    ⟨.head (.take rfl rest) hturns, hdrain⟩

/-- Reading with a cap ends behind the last chunk. -/
theorem turns_readCapped (cap : Nat) : ∀ (kept : List UInt8) (chunks : List Chunk),
    Turns (capped cap) ⟨kept, chunks⟩ ⟨(readCapped cap kept chunks).1, []⟩ ∧
      (readCapped cap kept chunks).2 = []
  | _, [] => ⟨.refl, rfl⟩
  | kept, chunk :: rest =>
    have ⟨hturns, hrest⟩ := turns_readCapped cap (keep cap kept chunk) rest
    ⟨.head (.take rfl rest) hturns, hrest⟩

/-- Where the reading of a whole body ends, with what, and what is left unread then. -/
inductive Ends (limit : Nat) (broken : Bool) : Reader → Limited × List Chunk → Prop where
  /-- The next chunk goes over the limit. -/
  | exceeded {kept : List UInt8} {chunk : Chunk} (h : limited limit kept chunk = none)
    (rest : List Chunk) : Ends limit broken ⟨kept, chunk :: rest⟩ (.tooLong, rest)
  | broken (h : broken = true) (kept : List UInt8) : Ends limit broken ⟨kept, []⟩ (.broken, [])
  | whole (h : broken = false) (kept : List UInt8) : Ends limit broken ⟨kept, []⟩ (.whole kept, [])

theorem exists_turns_readLimitedChunks (limit : Nat) (broken : Bool) :
    ∀ (kept : List UInt8) (chunks : List Chunk), ∃ r, Turns (limited limit) ⟨kept, chunks⟩ r ∧
      Ends limit broken r (readLimitedChunks limit broken kept chunks)
  | kept, [] => by
    refine ⟨⟨kept, []⟩, .refl, ?_⟩
    cases broken with
    | true => exact .broken rfl kept
    | false => exact .whole rfl kept
  | kept, chunk :: rest => by
    rw [readLimitedChunks]
    split
    · next hover => exact ⟨⟨kept, chunk :: rest⟩, .refl, .exceeded (if_pos hover) rest⟩
    · next hfits =>
      obtain ⟨r, hturns, hends⟩ := exists_turns_readLimitedChunks limit broken (kept ++ chunk) rest
      exact ⟨r, .head (.take (if_neg hfits) rest) hturns, hends⟩

/-- A reading that does not find the body too long leaves nothing unread. -/
theorem Ends.unread_eq_nil {broken : Bool} {result : Limited × List Chunk}
    (h : Ends limit broken r result) (hne : result.1 ≠ .tooLong) : result.2 = [] := by
  cases h with
  | exceeded => exact absurd rfl hne
  | broken => rfl
  | whole => rfl

/-- A body that is not announced as longer is read turn by turn. -/
theorem exists_turns_readLimited (h : ∀ n, b.announced = some n → n ≤ limit) :
    ∃ r, Turns (limited limit) b.start r ∧ Ends limit b.broken r (b.readLimited limit) := by
  have hread : ¬b.announced.any (limit < ·) = true := by
    rw [announced_any_iff]
    rintro ⟨n, hn, hlt⟩
    exact Nat.not_lt.2 (h n hn) hlt
  rw [readLimited, if_neg hread]
  exact exists_turns_readLimitedChunks limit b.broken [] b.chunks

/-! ## What the readings give -/

theorem not_exceeds_iff : ¬b.Exceeds limit ↔
    b.received.length ≤ limit ∧ ∀ n, b.announced = some n → n ≤ limit := by
  rw [Exceeds, not_or, Nat.not_lt, and_comm]
  simp only [not_exists, not_and, Nat.not_lt]

theorem readLimited_eq_tooLong_iff :
    (b.readLimited limit).1 = .tooLong ↔ b.Exceeds limit := by
  refine ⟨fun h => ?_, readLimited_of_exceeds⟩
  by_contra hwithin
  rw [readLimited_of_not_exceeds hwithin] at h
  split at h <;> cases h

theorem readLimited_eq_broken_iff :
    (b.readLimited limit).1 = .broken ↔ b.broken = true ∧ ¬b.Exceeds limit := by
  by_cases h : b.Exceeds limit
  · simp [readLimited_of_exceeds h, h]
  · simp [readLimited_of_not_exceeds h, h]

theorem readLimited_eq_whole_iff {bytes : List UInt8} : (b.readLimited limit).1 = .whole bytes ↔
    (b.broken = false ∧ ¬b.Exceeds limit) ∧ bytes = b.received := by
  by_cases h : b.Exceeds limit
  · simp [readLimited_of_exceeds h, h]
  · cases hb : b.broken <;> simp [readLimited_of_not_exceeds h, h, hb, eq_comm]

/-- What the readings of a body do, the one with a cap and the one with a limit under the same
bound. -/
structure Readings (bound : Nat) (b : Body) : Prop where
  tooLong : (b.readLimited bound).1 = .tooLong ↔
    (∃ n, b.announced = some n ∧ bound < n) ∨ bound < b.received.length
  /-- A body that is announced as longer is not read, and so does not break either. -/
  broken : (b.readLimited bound).1 = .broken ↔
    b.broken = true ∧ b.received.length ≤ bound ∧ ∀ n, b.announced = some n → n ≤ bound
  whole : ∀ bytes, (b.readLimited bound).1 = .whole bytes ↔
    (b.broken = false ∧ b.received.length ≤ bound ∧ ∀ n, b.announced = some n → n ≤ bound) ∧
      bytes = b.received
  first : (readCapped bound [] b.chunks).1 = b.received.take (min bound b.received.length)
  /-- Neither keeps more at any place than the bound, nor other bytes than the first. -/
  within : ∀ r, Turns (capped bound) b.start r ∨ Turns (limited bound) b.start r →
    r.Within bound b
  /-- Each reading is a way through the body. -/
  drained : Turns discarding b.start ⟨[], drain b.chunks⟩
  reads_capped : Turns (capped bound) b.start
    ⟨(readCapped bound [] b.chunks).1, (readCapped bound [] b.chunks).2⟩
  reads_limited : (∀ n, b.announced = some n → n ≤ bound) →
    ∃ r, Turns (limited bound) b.start r ∧ Ends bound b.broken r (b.readLimited bound)
  /-- It leaves nothing unread, unless there is too much. -/
  drain_all : drain b.chunks = []
  capped_all : (readCapped bound [] b.chunks).2 = []
  limited_all : (b.readLimited bound).1 ≠ .tooLong → (b.readLimited bound).2 = []

/-- The readings of a body keep to their bound, whatever the bound is, however the body is cut into
chunks and whether it ends or breaks off. -/
theorem reading_bounded (bound : Nat) (b : Body) : Readings bound b where
  tooLong := readLimited_eq_tooLong_iff
  broken := by rw [readLimited_eq_broken_iff, not_exceeds_iff]
  whole bytes := by rw [readLimited_eq_whole_iff, not_exceeds_iff]
  first := by rw [readCapped_received, ← List.take_take, List.take_length]
  within r h := h.elim Turns.within_capped Turns.within_limited
  drained := by
    obtain ⟨hturns, hdrain⟩ := turns_drain [] b.chunks
    exact hdrain ▸ hturns
  reads_capped := by
    obtain ⟨hturns, hrest⟩ := turns_readCapped bound [] b.chunks
    exact hrest ▸ hturns
  reads_limited := exists_turns_readLimited
  drain_all := (turns_drain [] b.chunks).2
  capped_all := (turns_readCapped bound [] b.chunks).2
  limited_all h := by
    have hread : ¬b.Exceeds bound := fun hexceeds => h (readLimited_of_exceeds hexceeds)
    obtain ⟨r, -, hends⟩ := exists_turns_readLimited (not_exceeds_iff.1 hread).2
    exact hends.unread_eq_nil h

end Courier.Body
