import Courier.Text.Utf8

/-!
# Reading back what is written in UTF-8

The reader goes byte by byte and does not look ahead, so that reading the bytes of a
character leaves it between two characters again, whatever follows
(`unitsFrom_encodeChar`). Hence the units of a written text are its characters
(`units_encode`), a written text is read back (`decode?_ofString`), and different texts have
different bytes (`ofString_injective`).
-/

namespace Courier.Utf8

/-- A number that is no character is a surrogate or too great. -/
theorem toNat_valid (c : Char) : c.toNat < 0xD800 ∨ 0xDFFF < c.toNat ∧ c.toNat < 0x110000 :=
  c.valid

/-! ## One byte -/

/-- A byte that continues the present character, others being missing. -/
theorem feed_continue {done : List (Option Char)} {missing low high bits k : Nat} (hk : k < 0x40)
    (hl : low ≤ 0x80 + k) (hh : 0x80 + k ≤ high) :
    Reading.feed done (.within (missing + 1) low high bits) (UInt8.ofNat (0x80 + k)) =
      (done, .within missing 0x80 0xBF (bits * 0x40 + k)) := by
  have hlt : 0x80 + k < 256 := by omega
  have hn : (UInt8.ofNat (0x80 + k)).toNat = 0x80 + k := UInt8.toNat_ofNat_of_lt' hlt
  simp only [Reading.feed, hn]
  rw [if_pos ⟨hl, hh⟩, Nat.add_sub_cancel_left]

/-- The last byte of a character. -/
theorem feed_last {done : List (Option Char)} {low high bits k : Nat} (hk : k < 0x40)
    (hl : low ≤ 0x80 + k) (hh : 0x80 + k ≤ high) :
    Reading.feed done (.within 0 low high bits) (UInt8.ofNat (0x80 + k)) =
      (some (Char.ofNat (bits * 0x40 + k)) :: done, .idle) := by
  have hlt : 0x80 + k < 256 := by omega
  have hn : (UInt8.ofNat (0x80 + k)).toNat = 0x80 + k := UInt8.toNat_ofNat_of_lt' hlt
  simp only [Reading.feed, hn]
  rw [if_pos ⟨hl, hh⟩, Nat.add_sub_cancel_left]

theorem unitsFrom_cons (done : List (Option Char)) (r : Reading) (b : UInt8) (bytes : List UInt8) :
    unitsFrom done r (b :: bytes) = unitsFrom (r.feed done b).1 (r.feed done b).2 bytes :=
  rfl

/-! ## One character -/

variable (done : List (Option Char)) (rest : List UInt8) {c : Char}

theorem unitsFrom_one (h : c.toNat < 0x80) :
    unitsFrom done .idle (UInt8.ofNat c.toNat :: rest) = unitsFrom (some c :: done) .idle rest := by
  have hf : Reading.feed done .idle (UInt8.ofNat c.toNat) = (some c :: done, .idle) := by
    have hlt : c.toNat < 256 := by omega
    simp only [Reading.feed, Reading.start, UInt8.toNat_ofNat_of_lt' hlt]
    rw [if_pos h, Char.ofNat_toNat]
  rw [unitsFrom_cons, hf]

/-- The first of two bytes. -/
theorem start_two (hl : 0x80 ≤ c.toNat) (hu : c.toNat < 0x800) :
    Reading.feed done .idle (UInt8.ofNat (0xC0 + c.toNat / 0x40)) =
      (done, .within 0 0x80 0xBF (c.toNat / 0x40)) := by
  have hlt : 0xC0 + c.toNat / 0x40 < 256 := by omega
  simp only [Reading.feed, Reading.start, UInt8.toNat_ofNat_of_lt' hlt]
  rw [if_neg (by omega), if_neg (by omega), if_pos (by omega), Nat.add_sub_cancel_left]

theorem unitsFrom_two (hl : 0x80 ≤ c.toNat) (hu : c.toNat < 0x800) :
    unitsFrom done .idle (UInt8.ofNat (0xC0 + c.toNat / 0x40) ::
        UInt8.ofNat (0x80 + c.toNat % 0x40) :: rest) =
      unitsFrom (some c :: done) .idle rest := by
  rw [unitsFrom_cons, start_two done hl hu, unitsFrom_cons,
    feed_last (by omega) (by omega) (by omega),
    show c.toNat / 0x40 * 0x40 + c.toNat % 0x40 = c.toNat by omega, Char.ofNat_toNat]

/-- The first of three bytes. The range for the second leaves out overlong forms and
surrogates, but no second byte of a character. -/
theorem start_three (hl : 0x800 ≤ c.toNat) (hu : c.toNat < 0x10000) :
    ∃ low high, Reading.feed done .idle (UInt8.ofNat (0xE0 + c.toNat / 0x1000)) =
        (done, .within 1 low high (c.toNat / 0x1000)) ∧
      low ≤ 0x80 + c.toNat / 0x40 % 0x40 ∧ 0x80 + c.toNat / 0x40 % 0x40 ≤ high := by
  have hv := toNat_valid c
  have hlt : 0xE0 + c.toNat / 0x1000 < 256 := by omega
  simp only [Reading.feed, Reading.start, UInt8.toNat_ofNat_of_lt' hlt]
  rw [if_neg (by omega), if_neg (by omega), if_neg (by omega)]
  split
  · next h => exact ⟨0xA0, 0xBF, by rw [show c.toNat / 0x1000 = 0 by omega], by omega, by omega⟩
  split
  · next h => exact ⟨0x80, 0x9F, by rw [show c.toNat / 0x1000 = 13 by omega], by omega, by omega⟩
  · refine ⟨0x80, 0xBF, ?_, by omega, by omega⟩
    rw [if_pos (by omega), Nat.add_sub_cancel_left]

theorem unitsFrom_three (hl : 0x800 ≤ c.toNat) (hu : c.toNat < 0x10000) :
    unitsFrom done .idle (UInt8.ofNat (0xE0 + c.toNat / 0x1000) ::
        UInt8.ofNat (0x80 + c.toNat / 0x40 % 0x40) :: UInt8.ofNat (0x80 + c.toNat % 0x40) ::
        rest) =
      unitsFrom (some c :: done) .idle rest := by
  obtain ⟨low, high, hf, hlow, hhigh⟩ := start_three done hl hu
  rw [unitsFrom_cons, hf, unitsFrom_cons, feed_continue (by omega) hlow hhigh, unitsFrom_cons,
    feed_last (by omega) (by omega) (by omega),
    show (c.toNat / 0x1000 * 0x40 + c.toNat / 0x40 % 0x40) * 0x40 + c.toNat % 0x40 = c.toNat by
      omega, Char.ofNat_toNat]

/-- The first of four bytes. The range for the second leaves out overlong forms and
numbers past the last character. -/
theorem start_four (hl : 0x10000 ≤ c.toNat) :
    ∃ low high, Reading.feed done .idle (UInt8.ofNat (0xF0 + c.toNat / 0x40000)) =
        (done, .within 2 low high (c.toNat / 0x40000)) ∧
      low ≤ 0x80 + c.toNat / 0x1000 % 0x40 ∧ 0x80 + c.toNat / 0x1000 % 0x40 ≤ high := by
  have hv := toNat_valid c
  simp only [Reading.feed, Reading.start,
    UInt8.toNat_ofNat_of_lt' (show 0xF0 + c.toNat / 0x40000 < 256 by omega)]
  rw [if_neg (by omega), if_neg (by omega), if_neg (by omega), if_neg (by omega),
    if_neg (by omega), if_neg (by omega)]
  split
  · next h => exact ⟨0x90, 0xBF, by rw [show c.toNat / 0x40000 = 0 by omega], by omega, by omega⟩
  split
  · refine ⟨0x80, 0xBF, ?_, by omega, by omega⟩
    rw [Nat.add_sub_cancel_left]
  · refine ⟨0x80, 0x8F, ?_, by omega, by omega⟩
    rw [if_pos (by omega), show c.toNat / 0x40000 = 4 by omega]

theorem unitsFrom_four (hl : 0x10000 ≤ c.toNat) :
    unitsFrom done .idle (UInt8.ofNat (0xF0 + c.toNat / 0x40000) ::
        UInt8.ofNat (0x80 + c.toNat / 0x1000 % 0x40) ::
        UInt8.ofNat (0x80 + c.toNat / 0x40 % 0x40) :: UInt8.ofNat (0x80 + c.toNat % 0x40) ::
        rest) =
      unitsFrom (some c :: done) .idle rest := by
  obtain ⟨low, high, hf, hlow, hhigh⟩ := start_four done hl
  rw [unitsFrom_cons, hf, unitsFrom_cons, feed_continue (by omega) hlow hhigh, unitsFrom_cons,
    feed_continue (by omega) (by omega) (by omega), unitsFrom_cons,
    feed_last (by omega) (by omega) (by omega),
    show ((c.toNat / 0x40000 * 0x40 + c.toNat / 0x1000 % 0x40) * 0x40 + c.toNat / 0x40 % 0x40) *
      0x40 + c.toNat % 0x40 = c.toNat by omega, Char.ofNat_toNat]

/-- The bytes of a character read as that character, whatever follows. -/
theorem unitsFrom_encodeChar (c : Char) :
    unitsFrom done .idle (encodeChar c ++ rest) = unitsFrom (some c :: done) .idle rest := by
  unfold encodeChar
  dsimp only
  split
  · next h => exact unitsFrom_one done rest h
  split
  · next h h' => exact unitsFrom_two done rest (by omega) h'
  split
  · next h h' => exact unitsFrom_three done rest (by omega) h'
  · next h => exact unitsFrom_four done rest (by omega)

/-! ## Texts -/

theorem unitsFrom_encode :
    ∀ (cs : List Char) (done : List (Option Char)),
      unitsFrom done .idle (encode cs) = done.reverse ++ cs.map some
  | [], done => by simp [encode, unitsFrom, Reading.finish]
  | c :: cs, done => by
    rw [encode, List.flatMap_cons, unitsFrom_encodeChar, ← encode, unitsFrom_encode cs]
    simp

/-- Every unit of a written text is a character of it. -/
theorem units_encode (cs : List Char) : units (encode cs) = cs.map some :=
  unitsFrom_encode cs []

theorem allChars?_go_some :
    ∀ cs done : List Char, allChars?.go done (cs.map some) = some (done.reverse ++ cs)
  | [], done => by simp [allChars?.go]
  | c :: cs, done => by
    rw [List.map_cons, allChars?.go, allChars?_go_some cs (c :: done)]
    simp

/-- A written text is read back. -/
theorem decode?_ofString (s : String) : decode? (ofString s) = some s.toList := by
  rw [decode?, ofString, units_encode, allChars?, allChars?_go_some, List.reverse_nil,
    List.nil_append]

theorem encode_injective {cs cs' : List Char} (h : encode cs = encode cs') : cs = cs' := by
  have hu : cs.map some = cs'.map some := by rw [← units_encode, h, units_encode]
  exact List.map_inj_right (fun _ _ => Option.some.inj) |>.1 hu

theorem ofString_injective {s s' : String} (h : ofString s = ofString s') : s = s' :=
  String.toList_injective (encode_injective h)

end Courier.Utf8
