import Courier.Exchange.Body

/-!
# What reading a body gives

The readers of a body see it chunk by chunk, but what they give depends only on the bytes
that arrive (`Body.received`), on the announced length and on whether the stream breaks.
`readCapped` keeps the first bytes up to its cap (`readCapped_received`). `readLimited`
gives up exactly if more bytes than the limit are announced or arrive
(`readLimited_of_exceeds`), also if the stream would break later; otherwise it gives the
break or every byte (`readLimited_of_not_exceeds`).
-/

namespace Courier.Body

/-- The bytes that arrive. -/
def received (b : Body) : List UInt8 :=
  b.chunks.flatten

/-- More bytes than the limit are announced or arrive. -/
def Exceeds (limit : Nat) (b : Body) : Prop :=
  (∃ n, b.announced = some n ∧ limit < n) ∨ limit < b.received.length

theorem announced_any_iff (limit : Nat) (b : Body) :
    b.announced.any (limit < ·) = true ↔ ∃ n, b.announced = some n ∧ limit < n := by
  cases b.announced <;> simp

/-! ## Reading with a cap -/

theorem take_append_take (n : Nat) (bytes more : List UInt8) :
    (bytes.take n ++ more).take n = (bytes ++ more).take n := by
  rw [List.take_append, List.take_append, List.take_take, Nat.min_self, List.length_take]
  congr 2
  omega

/-- A full buffer takes nothing, and one with room takes from the front of the chunk. -/
theorem keep_eq_take {cap : Nat} {buffer : List UInt8} (h : buffer.length ≤ cap)
    (chunk : Chunk) : keep cap buffer chunk = (buffer ++ chunk).take cap := by
  rw [keep, List.take_append, List.take_of_length_le h]

theorem readCapped_fst (cap : Nat) :
    ∀ (buffer : List UInt8) (chunks : List Chunk), buffer.length ≤ cap →
      (readCapped cap buffer chunks).1 = (buffer ++ chunks.flatten).take cap
  | buffer, [], h => by
    rw [readCapped, List.flatten_nil, List.append_nil, List.take_of_length_le h]
  | buffer, chunk :: rest, h => by
    have hk : (keep cap buffer chunk).length ≤ cap := by
      rw [keep_eq_take h, List.length_take]
      exact Nat.min_le_left _ _
    rw [readCapped, readCapped_fst cap _ rest hk, keep_eq_take h, take_append_take,
      List.flatten_cons, List.append_assoc]

/-- Reading with a cap keeps the first bytes that arrive. -/
theorem readCapped_received (cap : Nat) (b : Body) :
    (readCapped cap [] b.chunks).1 = b.received.take cap :=
  readCapped_fst cap [] b.chunks (Nat.zero_le _)

/-! ## Reading up to a limit -/

theorem readLimitedChunks_of_lt (limit : Nat) (broken : Bool) :
    ∀ (buffer : List UInt8) (chunks : List Chunk), buffer.length ≤ limit →
      limit < buffer.length + chunks.flatten.length →
      (readLimitedChunks limit broken buffer chunks).1 = .tooLong
  | buffer, [], hb, h => by simp at h; omega
  | buffer, chunk :: rest, hb, h => by
    rw [readLimitedChunks]
    split
    · rfl
    · next hle =>
      refine readLimitedChunks_of_lt limit broken _ rest ?_ ?_
      · rw [List.length_append]
        omega
      · simpa [Nat.add_assoc] using h

theorem readLimitedChunks_of_le (limit : Nat) (broken : Bool) :
    ∀ (buffer : List UInt8) (chunks : List Chunk),
      buffer.length + chunks.flatten.length ≤ limit →
      (readLimitedChunks limit broken buffer chunks).1 =
        if broken then .broken else .whole (buffer ++ chunks.flatten)
  | buffer, [], _ => by simp [readLimitedChunks]
  | buffer, chunk :: rest, h => by
    simp only [List.flatten_cons, List.length_append] at h
    rw [readLimitedChunks, if_neg (by omega), readLimitedChunks_of_le limit broken _ rest
      (by rw [List.length_append]; omega), List.flatten_cons, List.append_assoc]

/-- A body that exceeds the limit is given up, whether or not its stream would break. -/
theorem readLimited_of_exceeds {limit : Nat} {b : Body} (h : b.Exceeds limit) :
    (b.readLimited limit).1 = .tooLong := by
  unfold readLimited
  split
  · rfl
  · next hn =>
    rw [announced_any_iff] at hn
    exact readLimitedChunks_of_lt limit b.broken [] b.chunks (Nat.zero_le _)
      (by simpa [received] using h.resolve_left hn)

theorem readLimited_of_not_exceeds {limit : Nat} {b : Body} (h : ¬b.Exceeds limit) :
    (b.readLimited limit).1 = if b.broken then .broken else .whole b.received := by
  obtain ⟨hn, hl⟩ := not_or.1 h
  rw [readLimited, if_neg (by rwa [announced_any_iff])]
  exact readLimitedChunks_of_le limit b.broken [] b.chunks (by simpa [received] using hl)

/-- What reading up to a limit gives is settled by the bytes that arrive, by the end of the
stream and by whether the limit is exceeded. -/
theorem readLimited_congr {limit : Nat} {b b' : Body} (hr : b.received = b'.received)
    (hb : b.broken = b'.broken) (he : b.Exceeds limit ↔ b'.Exceeds limit) :
    (b.readLimited limit).1 = (b'.readLimited limit).1 := by
  by_cases h : b.Exceeds limit
  · rw [readLimited_of_exceeds h, readLimited_of_exceeds (he.1 h)]
  · rw [readLimited_of_not_exceeds h, readLimited_of_not_exceeds fun h' => h (he.2 h'), hr, hb]

/-- An announced length that does not claim too long a body for a short one changes
nothing. -/
theorem exceeds_announced {limit n : Nat} {chunks : List Chunk} {broken : Bool}
    (h : limit < n → limit < chunks.flatten.length) :
    Exceeds limit ⟨chunks, some n, broken⟩ ↔ Exceeds limit ⟨chunks, none, broken⟩ := by
  simp only [Exceeds, received]
  constructor
  · rintro (⟨m, hm, hlt⟩ | hlt)
    · obtain rfl := Option.some.inj hm
      exact Or.inr (h hlt)
    · exact Or.inr hlt
  · rintro (⟨m, hm, -⟩ | hlt)
    · cases hm
    · exact Or.inr hlt

end Courier.Body
