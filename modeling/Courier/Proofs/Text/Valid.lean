import Courier.Proofs.Text.Lossy
import Mathlib.Data.List.Basic

/-!
# Which bytes are UTF-8

The bytes of texts are the only ones that are read without an undecodable part
(`decode?_eq_some_iff`). Inside a character the reader knows which bytes may still come :
`Begun front r` says that any bytes it waits for in `r` make, behind the bytes `front` it has
already taken, the bytes of one character. Every byte keeps this, completes the character or ends in
an undecodable part (`Begun.feed`), so that what is read without such a part is one character after
the other (`Begun.exists_encode`).
-/

namespace Courier.Utf8

/-! ## Units that stay -/

theorem mem_start {u : Option Char} {done : List (Option Char)} (h : u ∈ done) (b : UInt8) :
    u ∈ (Reading.start done b).1 := by
  unfold Reading.start
  dsimp only
  repeat' split
  all_goals first | exact h | exact List.mem_cons_of_mem _ h

theorem mem_feed {u : Option Char} {done : List (Option Char)} (h : u ∈ done) (r : Reading)
    (b : UInt8) : u ∈ (r.feed done b).1 := by
  cases r with
  | idle => exact mem_start h b
  | within missing low high bits =>
    simp only [Reading.feed]
    split
    · cases missing with
      | zero => exact List.mem_cons_of_mem _ h
      | succ missing => exact h
    · exact mem_start (List.mem_cons_of_mem _ h) b

/-- No unit is taken back. -/
theorem mem_unitsFrom {u : Option Char} :
    ∀ (bytes : List UInt8) {done : List (Option Char)} (r : Reading), u ∈ done →
      u ∈ unitsFrom done r bytes
  | [], _, .idle, h => List.mem_reverse.2 h
  | [], _, .within .., h => List.mem_reverse.2 (List.mem_cons_of_mem _ h)
  | b :: bytes, _, r, h => mem_unitsFrom bytes _ (mem_feed h r b)

/-! ## The bytes of a number -/

/-- The bits with six more from a byte that continues a character. -/
def withByte (bits : Nat) (b : UInt8) : Nat :=
  bits * 0x40 + b.toNat % 0x40

/-- The bits with those of all the bytes that continue a character. -/
def withBytes (bits : Nat) (bytes : List UInt8) : Nat :=
  bytes.foldl withByte bits

theorem toNat_ofNat_of_valid {n : Nat} (h : n < 0xD800 ∨ 0xDFFF < n ∧ n < 0x110000) :
    (Char.ofNat n).toNat = n := by
  rw [Char.ofNat, dif_pos h]
  rfl

theorem ofNat_eq {n : Nat} {b : UInt8} (h : n = b.toNat) : UInt8.ofNat n = b := by
  rw [h, UInt8.ofNat_toNat]

theorem encodeChar_one {n : Nat} {a : UInt8} (h : n < 0x80) (ha : n = a.toNat) :
    encodeChar (Char.ofNat n) = [a] := by
  simp only [encodeChar, toNat_ofNat_of_valid (show n < 0xD800 ∨ _ by omega)]
  rw [if_pos h, ofNat_eq ha]

theorem encodeChar_two {n : Nat} {a b : UInt8} (hl : 0x80 ≤ n) (hu : n < 0x800)
    (ha : 0xC0 + n / 0x40 = a.toNat) (hb : 0x80 + n % 0x40 = b.toNat) :
    encodeChar (Char.ofNat n) = [a, b] := by
  simp only [encodeChar, toNat_ofNat_of_valid (show n < 0xD800 ∨ _ by omega)]
  rw [if_neg (by omega), if_pos hu, ofNat_eq ha, ofNat_eq hb]

theorem encodeChar_three {n : Nat} {a b c : UInt8} (hl : 0x800 ≤ n) (hu : n < 0x10000)
    (hs : n < 0xD800 ∨ 0xDFFF < n) (ha : 0xE0 + n / 0x1000 = a.toNat)
    (hb : 0x80 + n / 0x40 % 0x40 = b.toNat) (hc : 0x80 + n % 0x40 = c.toNat) :
    encodeChar (Char.ofNat n) = [a, b, c] := by
  simp only [encodeChar, toNat_ofNat_of_valid (show n < 0xD800 ∨ 0xDFFF < n ∧ n < 0x110000 by omega)]
  rw [if_neg (by omega), if_neg (by omega), if_pos hu, ofNat_eq ha, ofNat_eq hb, ofNat_eq hc]

theorem encodeChar_four {n : Nat} {a b c d : UInt8} (hl : 0x10000 ≤ n) (hu : n < 0x110000)
    (ha : 0xF0 + n / 0x40000 = a.toNat) (hb : 0x80 + n / 0x1000 % 0x40 = b.toNat)
    (hc : 0x80 + n / 0x40 % 0x40 = c.toNat) (hd : 0x80 + n % 0x40 = d.toNat) :
    encodeChar (Char.ofNat n) = [a, b, c, d] := by
  simp only [encodeChar, toNat_ofNat_of_valid (show n < 0xD800 ∨ 0xDFFF < n ∧ n < 0x110000 by omega)]
  rw [if_neg (by omega), if_neg (by omega), if_neg (by omega), ofNat_eq ha, ofNat_eq hb,
    ofNat_eq hc, ofNat_eq hd]

/-! ## Inside a character -/

/-- The bytes that the reader has taken of the present character, whichever of those it waits for
come next, are the bytes of a character with them. -/
def Begun (front : List UInt8) : Reading → Prop
  | .idle => front = []
  | .within missing low high bits => (0x80 ≤ low ∧ high ≤ 0xBF) ∧
    ∀ b rest, rest.length = missing → low ≤ b.toNat → b.toNat ≤ high →
      (∀ b' ∈ rest, 0x80 ≤ b'.toNat ∧ b'.toNat ≤ 0xBF) →
      encodeChar (Char.ofNat (withBytes bits (b :: rest))) = front ++ b :: rest

/-- What a byte does : it completes a character, goes on with one, or leaves an undecodable part. -/
def Advances (front : List UInt8) (done : List (Option Char)) (b : UInt8)
    (next : List (Option Char) × Reading) : Prop :=
  (∃ c, next = (some c :: done, .idle) ∧ encodeChar c = front ++ [b]) ∨
    (next.1 = done ∧ Begun (front ++ [b]) next.2) ∨ none ∈ next.1

theorem begun_two {b : UInt8} (hl : 0xC2 ≤ b.toNat) (hu : b.toNat < 0xE0) :
    Begun [b] (.within 0 0x80 0xBF (b.toNat - 0xC0)) := by
  refine ⟨by omega, fun b₁ rest hlen h₁ h₁' _ => ?_⟩
  obtain rfl := List.length_eq_zero_iff.1 hlen
  simp only [withBytes, List.foldl_cons, List.foldl_nil, withByte]
  exact encodeChar_two (by omega) (by omega) (by omega) (by omega)

/-- The bounds for the second of three bytes leave out overlong forms and surrogates. -/
theorem begun_three {b : UInt8} {low high bits : Nat} (hbits : bits = b.toNat - 0xE0)
    (hl : 0xE0 ≤ b.toNat) (hu : b.toNat < 0xF0) (hlow : 0x80 ≤ low) (hhigh : high ≤ 0xBF)
    (hshort : b.toNat = 0xE0 → 0xA0 ≤ low) (hsurrogate : b.toNat = 0xED → high ≤ 0x9F) :
    Begun [b] (.within 1 low high bits) := by
  refine ⟨⟨hlow, hhigh⟩, fun b₁ rest hlen h₁ h₁' hrest => ?_⟩
  obtain ⟨b₂, rfl⟩ := List.length_eq_one_iff.1 hlen
  obtain ⟨h₂, h₂'⟩ := hrest b₂ (List.mem_singleton_self b₂)
  simp only [withBytes, List.foldl_cons, List.foldl_nil, withByte, hbits]
  exact encodeChar_three (by omega) (by omega) (by omega) (by omega) (by omega) (by omega)

/-- The bounds for the second of four bytes leave out overlong forms and numbers past the last
character. -/
theorem begun_four {b : UInt8} {low high bits : Nat} (hbits : bits = b.toNat - 0xF0)
    (hl : 0xF0 ≤ b.toNat) (hu : b.toNat < 0xF5) (hlow : 0x80 ≤ low) (hhigh : high ≤ 0xBF)
    (hshort : b.toNat = 0xF0 → 0x90 ≤ low) (hlast : b.toNat = 0xF4 → high ≤ 0x8F) :
    Begun [b] (.within 2 low high bits) := by
  refine ⟨⟨hlow, hhigh⟩, fun b₁ rest hlen h₁ h₁' hrest => ?_⟩
  obtain ⟨b₂, b₃, rfl⟩ := List.length_eq_two.1 hlen
  obtain ⟨h₂, h₂'⟩ := hrest b₂ (by simp)
  obtain ⟨h₃, h₃'⟩ := hrest b₃ (by simp)
  simp only [withBytes, List.foldl_cons, List.foldl_nil, withByte, hbits]
  exact encodeChar_four (by omega) (by omega) (by omega) (by omega) (by omega) (by omega)

theorem advances_start (done : List (Option Char)) (b : UInt8) :
    Advances [] done b (Reading.start done b) := by
  unfold Reading.start
  dsimp only
  split
  · next h => exact .inl ⟨_, rfl, encodeChar_one h rfl⟩
  split
  · exact .inr (.inr List.mem_cons_self)
  split
  · exact .inr (.inl ⟨rfl, begun_two (by omega) (by omega)⟩)
  split
  · exact .inr (.inl ⟨rfl, begun_three (by omega) (by omega) (by omega) (by omega) (by omega)
      (by omega) (by omega)⟩)
  split
  · exact .inr (.inl ⟨rfl, begun_three (by omega) (by omega) (by omega) (by omega) (by omega)
      (by omega) (by omega)⟩)
  split
  · exact .inr (.inl ⟨rfl, begun_three rfl (by omega) (by omega) (by omega) (by omega)
      (by omega) (by omega)⟩)
  split
  · exact .inr (.inl ⟨rfl, begun_four (by omega) (by omega) (by omega) (by omega) (by omega)
      (by omega) (by omega)⟩)
  split
  · exact .inr (.inl ⟨rfl, begun_four rfl (by omega) (by omega) (by omega) (by omega)
      (by omega) (by omega)⟩)
  split
  · exact .inr (.inl ⟨rfl, begun_four (by omega) (by omega) (by omega) (by omega) (by omega)
      (by omega) (by omega)⟩)
  · exact .inr (.inr List.mem_cons_self)

/-- A byte that the reader waits for is one more byte of the character, and any other one leaves an
undecodable part. -/
theorem Begun.feed {front : List UInt8} {r : Reading} (h : Begun front r)
    (done : List (Option Char)) (b : UInt8) : Advances front done b (r.feed done b) := by
  cases r with
  | idle =>
    obtain rfl : front = [] := h
    exact advances_start done b
  | within missing low high bits =>
    simp only [Reading.feed]
    split
    · next hb =>
      obtain ⟨⟨hlow, hhigh⟩, hbytes⟩ := h
      have hbits : bits * 0x40 + (b.toNat - 0x80) = withByte bits b := by
        rw [withByte]
        omega
      rw [hbits]
      cases missing with
      | zero => exact .inl ⟨_, rfl, hbytes b [] rfl hb.1 hb.2 (by simp)⟩
      | succ missing =>
        refine .inr (.inl ⟨rfl, ⟨Nat.le_refl _, Nat.le_refl _⟩, fun b' rest hlen hl hu hrest => ?_⟩)
        have hlonger := hbytes b (b' :: rest) (by rw [List.length_cons, hlen]) hb.1 hb.2
          (List.forall_mem_cons.2 ⟨⟨hl, hu⟩, hrest⟩)
        rwa [List.append_assoc]
    · exact .inr (.inr (mem_start List.mem_cons_self b))

/-! ## Whole texts -/

/-- What is read without an undecodable part is one character after the other. -/
theorem Begun.exists_encode :
    ∀ (bytes : List UInt8) {front : List UInt8} {done : List (Option Char)} {r : Reading},
      Begun front r → none ∉ unitsFrom done r bytes → ∃ cs, front ++ bytes = encode cs
  | [], _, _, .idle, h, _ => ⟨[], by rw [show _ = [] from h]; rfl⟩
  | [], _, _, .within .., _, hnone => absurd (List.mem_reverse.2 List.mem_cons_self) hnone
  | b :: bytes, front, done, r, h, hnone => by
    rw [unitsFrom_cons] at hnone
    rcases h.feed done b with ⟨c, hnext, hc⟩ | ⟨-, hbegun⟩ | hmem
    · have hbegun : Begun [] .idle := rfl
      rw [hnext] at hnone
      obtain ⟨cs, hcs⟩ := hbegun.exists_encode bytes hnone
      rw [List.nil_append] at hcs
      exact ⟨c :: cs, by rw [encode_cons, hc, ← hcs, List.append_assoc, List.singleton_append]⟩
    · obtain ⟨cs, hcs⟩ := hbegun.exists_encode bytes hnone
      exact ⟨cs, by rw [← hcs, List.append_assoc, List.singleton_append]⟩
    · exact absurd (mem_unitsFrom bytes _ hmem) hnone

theorem allChars?_go_none :
    ∀ {us : List (Option Char)} (done : List Char), none ∈ us → allChars?.go done us = none
  | none :: _, _, _ => rfl
  | some c :: us, done, h => by
    rw [allChars?.go]
    exact allChars?_go_none (c :: done) (by simpa using h)

/-- The bytes of texts are the only ones that are decoded. -/
theorem decode?_eq_some_iff {bytes : List UInt8} {cs : List Char} :
    decode? bytes = some cs ↔ bytes = encode cs := by
  have hencode : ∀ cs, decode? (encode cs) = some cs := fun cs => by
    simpa [ofString] using decode?_ofString (String.ofList cs)
  refine ⟨fun h => ?_, fun h => by rw [h, hencode]⟩
  have hnone : none ∉ units bytes := by
    intro hmem
    rw [decode?, allChars?, allChars?_go_none [] hmem] at h
    cases h
  have hbegun : Begun [] .idle := rfl
  obtain ⟨cs', rfl⟩ := hbegun.exists_encode bytes hnone
  rw [hencode] at h
  rw [Option.some.inj h]

/-- What is not decoded is the bytes of no text. -/
theorem decode?_eq_none_iff {bytes : List UInt8} :
    decode? bytes = none ↔ ∀ s, bytes ≠ ofString s := by
  simp only [Option.eq_none_iff_forall_ne_some, ne_eq, decode?_eq_some_iff]
  refine ⟨fun h s hs => h s.toList hs, fun h cs hcs => h (String.ofList cs) ?_⟩
  rw [hcs, ofString, String.toList_ofList]

end Courier.Utf8
