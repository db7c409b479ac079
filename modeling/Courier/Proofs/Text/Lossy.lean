import Courier.Proofs.Text.Utf8

/-!
# Reading bytes that are cut off

The first bytes of a text are those of its longest beginning that fits (`LongestFit`), and then, if
the cut falls inside a character (`Cuts`), some of that character. The reader makes one undecodable
part of these, so that what a cut text is read as is settled by the beginning and the cut
(`decodeLossy_of_cuts`, `decodeLossy_of_not_cuts`).

Of any bytes whatever the reader makes a text that has at most three times as many
(`length_decodeLossy_le`), since one byte is the least that goes into an undecodable part, and three
are written for it.
-/

namespace Courier.Utf8

/-- The longest beginning of a text whose bytes are at most `cap`. -/
structure LongestFit (cap : Nat) (cs start : List Char) : Prop where
  leads : start <+: cs
  fits : (encode start).length ≤ cap
  longest : ∀ other, other <+: cs → (encode other).length ≤ cap → other <+: start

/-- The end of the first `cap` bytes of a text falls inside a character. -/
def Cuts (cap : Nat) (cs : List Char) : Prop :=
  ∃ start c rest, cs = start ++ c :: rest ∧ (encode start).length < cap ∧
    cap < (encode (start ++ [c])).length

variable {cap : Nat} {cs start : List Char}

theorem encode_append (cs cs' : List Char) : encode (cs ++ cs') = encode cs ++ encode cs' :=
  List.flatMap_append

theorem encode_cons (c : Char) (cs : List Char) : encode (c :: cs) = encodeChar c ++ encode cs :=
  List.flatMap_cons

theorem encode_singleton (c : Char) : encode [c] = encodeChar c :=
  List.append_nil _

/-! ## The cut -/

/-- The first bytes of a character alone are one undecodable part. -/
theorem unitsFrom_take_encodeChar (done : List (Option Char)) (c : Char) {k : Nat} (hpos : 0 < k)
    (hk : k < (encodeChar c).length) :
    unitsFrom done .idle ((encodeChar c).take k) = done.reverse ++ [none] := by
  have hfinish : ∀ missing low high bits,
      unitsFrom done (.within missing low high bits) [] = done.reverse ++ [none] :=
    fun _ _ _ _ => List.reverse_cons
  revert hk
  unfold encodeChar
  dsimp only
  split
  · intro hk
    simp at hk
    omega
  split
  · next h₁ h₂ =>
    intro hk
    obtain rfl : k = 1 := by simp at hk; omega
    rw [List.take_succ_cons, List.take_zero, unitsFrom_cons, start_two done (by omega) h₂, hfinish]
  split
  · next h₁ h₂ h₃ =>
    intro hk
    obtain ⟨low, high, hf, hlow, hhigh⟩ := start_three (c := c) done (by omega) h₃
    obtain rfl | rfl : k = 1 ∨ k = 2 := by simp at hk; omega
    · rw [List.take_succ_cons, List.take_zero, unitsFrom_cons, hf, hfinish]
    · rw [List.take_succ_cons, List.take_succ_cons, List.take_zero, unitsFrom_cons, hf,
        unitsFrom_cons, feed_continue (by omega) hlow hhigh, hfinish]
  · next h₁ h₂ h₃ =>
    intro hk
    obtain ⟨low, high, hf, hlow, hhigh⟩ := start_four (c := c) done (by omega)
    obtain rfl | rfl | rfl : k = 1 ∨ k = 2 ∨ k = 3 := by simp at hk; omega
    · rw [List.take_succ_cons, List.take_zero, unitsFrom_cons, hf, hfinish]
    · rw [List.take_succ_cons, List.take_succ_cons, List.take_zero, unitsFrom_cons, hf,
        unitsFrom_cons, feed_continue (by omega) hlow hhigh, hfinish]
    · rw [List.take_succ_cons, List.take_succ_cons, List.take_succ_cons, List.take_zero,
        unitsFrom_cons, hf, unitsFrom_cons, feed_continue (by omega) hlow hhigh, unitsFrom_cons,
        feed_continue (by omega) (by omega) (by omega), hfinish]

/-- A text is read character by character, whatever follows. -/
theorem unitsFrom_encode_append (rest : List UInt8) :
    ∀ (cs : List Char) (done : List (Option Char)),
      unitsFrom done .idle (encode cs ++ rest) =
        unitsFrom ((cs.map some).reverse ++ done) .idle rest
  | [], done => rfl
  | c :: cs, done => by
    rw [encode_cons, List.append_assoc, unitsFrom_encodeChar, unitsFrom_encode_append rest cs,
      List.map_cons, List.reverse_cons, List.append_assoc, List.singleton_append]

theorem decodeLossy_encode (cs : List Char) : decodeLossy (encode cs) = cs := by
  rw [decodeLossy, units_encode, List.map_map]
  exact List.map_id cs

theorem decodeLossy_encode_append_take (cs : List Char) (c : Char) {k : Nat} (hpos : 0 < k)
    (hk : k < (encodeChar c).length) :
    decodeLossy (encode cs ++ (encodeChar c).take k) = cs ++ ['\uFFFD'] := by
  rw [decodeLossy, units, unitsFrom_encode_append, unitsFrom_take_encodeChar _ c hpos hk]
  simp [Function.comp_def]

/-! ## The longest beginning -/

theorem length_encode_le_of_prefix {cs cs' : List Char} (h : cs <+: cs') :
    (encode cs).length ≤ (encode cs').length := by
  obtain ⟨rest, rfl⟩ := h
  rw [encode_append, List.length_append]
  exact Nat.le_add_right _ _

/-- A beginning that fits, but not with the character after it, is the longest one. -/
theorem longestFit_of_next {c : Char} {rest : List Char} (hcs : cs = start ++ c :: rest)
    (hfits : (encode start).length ≤ cap) (hnext : cap < (encode (start ++ [c])).length) :
    LongestFit cap cs start := by
  refine ⟨⟨_, hcs.symm⟩, hfits, fun other hother hlen => ?_⟩
  have hlonger : start ++ [c] <+: cs :=
    ⟨rest, by rw [hcs, List.append_assoc, List.singleton_append]⟩
  rcases List.prefix_or_prefix_of_prefix hother hlonger with h | h
  · rcases List.prefix_concat_iff.1 h with rfl | h
    · omega
    · exact h
  · have := length_encode_le_of_prefix h
    omega

/-- Where the bytes of a text are too many, a beginning of it is the last one that fits. -/
theorem exists_next :
    ∀ (cap : Nat) (cs : List Char), cap < (encode cs).length →
      ∃ start c rest, cs = start ++ c :: rest ∧ (encode start).length ≤ cap ∧
        cap < (encode (start ++ [c])).length
  | _, [], h => by simp [encode] at h
  | cap, c :: cs, h => by
    by_cases hc : (encodeChar c).length ≤ cap
    · rw [encode_cons, List.length_append] at h
      obtain ⟨start, d, rest, rfl, hfits, hnext⟩ :=
        exists_next (cap - (encodeChar c).length) cs (by omega)
      refine ⟨c :: start, d, rest, rfl, ?_, ?_⟩
      · rw [encode_cons, List.length_append]
        omega
      · rw [List.cons_append, encode_cons, List.length_append]
        omega
    · refine ⟨[], c, cs, rfl, Nat.zero_le _, ?_⟩
      rw [List.nil_append, encode_cons, List.length_append]
      omega

theorem LongestFit.unique {other : List Char} (h : LongestFit cap cs start)
    (h' : LongestFit cap cs other) : other = start :=
  (h.longest other h'.leads h'.fits).eq_of_length_le (h'.longest start h.leads h.fits).length_le

theorem exists_longestFit (h : cap < (encode cs).length) : ∃ start, LongestFit cap cs start := by
  obtain ⟨start, c, rest, hcs, hfits, hnext⟩ := exists_next cap cs h
  exact ⟨start, longestFit_of_next hcs hfits hnext⟩

/-- A cut inside a character leaves the characters before it and one mark. -/
theorem decodeLossy_of_cuts (h : LongestFit cap cs start) (hcuts : Cuts cap cs) :
    decodeLossy ((encode cs).take cap) = start ++ ['\uFFFD'] := by
  obtain ⟨start', c, rest, rfl, hlt, hnext⟩ := hcuts
  obtain rfl := h.unique (longestFit_of_next rfl (Nat.le_of_lt hlt) hnext)
  rw [encode_append, encode_singleton, List.length_append] at hnext
  rw [encode_append, encode_cons, List.take_append, List.take_of_length_le (Nat.le_of_lt hlt),
    List.take_append,
    show cap - (encode start').length - (encodeChar c).length = 0 by omega, List.take_zero,
    List.append_nil]
  exact decodeLossy_encode_append_take start' c (by omega) (by omega)

/-- A cut between two characters leaves the characters before it. -/
theorem decodeLossy_of_not_cuts (h : LongestFit cap cs start) (hlong : cap < (encode cs).length)
    (hcuts : ¬Cuts cap cs) : decodeLossy ((encode cs).take cap) = start := by
  obtain ⟨start', c, rest, hcs, hfits, hnext⟩ := exists_next cap cs hlong
  obtain rfl := h.unique (longestFit_of_next hcs hfits hnext)
  have hfull : (encode start').length = cap :=
    Nat.le_antisymm hfits (Nat.not_lt.1 fun hlt => hcuts ⟨start', c, rest, hcs, hlt, hnext⟩)
  rw [hcs, encode_append, ← hfull, List.take_left', decodeLossy_encode]
  rfl

/-! ## The length of what is read -/

/-- The number of bytes of the text that is read from some units. -/
def weight (us : List (Option Char)) : Nat :=
  (encode (us.map (·.getD '\uFFFD'))).length

/-- The number of bytes that a character in the making may come to, if it is cut off. -/
def Reading.weight : Reading → Nat
  | .idle => 0
  | .within .. => 3

theorem length_encodeChar_le (c : Char) : (encodeChar c).length ≤ 4 := by
  unfold encodeChar
  dsimp only
  split
  · exact Nat.le_add_left 1 3
  split
  · exact Nat.le_add_left 2 2
  split
  · exact Nat.le_add_left 3 1
  · exact Nat.le_refl 4

theorem length_encodeChar_ofNat : ∀ n < 0x80, (encodeChar (Char.ofNat n)).length = 1 := by
  decide +kernel

theorem weight_cons (u : Option Char) (us : List (Option Char)) :
    weight (u :: us) = (encodeChar (u.getD '\uFFFD')).length + weight us := by
  rw [weight, List.map_cons, encode_cons, List.length_append, weight]

theorem weight_none_cons (us : List (Option Char)) : weight (none :: us) = 3 + weight us :=
  weight_cons none us

theorem weight_reverse (us : List (Option Char)) : weight us.reverse = weight us := by
  induction us with
  | nil => rfl
  | cons u us ih =>
    rw [weight_cons, ← ih, List.reverse_cons, weight, List.map_append, encode_append,
      List.length_append, Nat.add_comm, ← weight]
    exact congrArg (· + _) (congrArg List.length (encode_singleton _))

/-- A byte between two characters adds three bytes at most. -/
theorem weight_start (done : List (Option Char)) (b : UInt8) :
    weight (Reading.start done b).1 + (Reading.start done b).2.weight ≤ weight done + 3 := by
  unfold Reading.start
  dsimp only
  split
  · next h =>
    show weight (some _ :: done) + 0 ≤ _
    rw [weight_cons, Option.getD_some, length_encodeChar_ofNat _ h]
    omega
  repeat' split
  all_goals simp only [weight_none_cons, Reading.weight]; omega

/-- So does every other byte, with what is left of the character in the making. -/
theorem weight_feed (done : List (Option Char)) (r : Reading) (b : UInt8) :
    weight (r.feed done b).1 + (r.feed done b).2.weight ≤ weight done + r.weight + 3 := by
  cases r with
  | idle => exact weight_start done b
  | within missing low high bits =>
    simp only [Reading.feed]
    split
    · cases missing with
      | zero =>
        show weight (some _ :: done) + 0 ≤ weight done + 3 + 3
        have hchar := length_encodeChar_le (Char.ofNat (bits * 0x40 + (b.toNat - 0x80)))
        rw [weight_cons, Option.getD_some]
        omega
      | succ missing => exact Nat.le_add_right _ 3
    · have hstart := weight_start (none :: done) b
      rw [weight_none_cons] at hstart
      show _ ≤ weight done + 3 + 3
      omega

theorem weight_unitsFrom :
    ∀ (bytes : List UInt8) (done : List (Option Char)) (r : Reading),
      weight (unitsFrom done r bytes) ≤ weight done + r.weight + 3 * bytes.length
  | [], done, .idle => by
    show weight done.reverse ≤ _
    rw [weight_reverse]
    exact Nat.le_add_right _ _
  | [], done, .within .. => by
    show weight (none :: done).reverse ≤ weight done + 3 + 0
    rw [weight_reverse, weight_none_cons]
    omega
  | b :: bytes, done, r => by
    have hrest := weight_unitsFrom bytes (r.feed done b).1 (r.feed done b).2
    have hfeed := weight_feed done r b
    rw [unitsFrom_cons, List.length_cons]
    omega

/-- What is read from bytes takes three times as many at most. -/
theorem length_decodeLossy_le (bytes : List UInt8) :
    (encode (decodeLossy bytes)).length ≤ 3 * bytes.length := by
  have h := weight_unitsFrom bytes [] .idle
  rwa [show weight [] + Reading.weight .idle = 0 from rfl, Nat.zero_add] at h

end Courier.Utf8
