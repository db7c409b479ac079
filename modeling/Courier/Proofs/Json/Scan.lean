import Courier.Proofs.Json.Grammar

/-!
# Scanning a JSON text

The scanner takes one character at a time, so that what it does with a text is put together
from what it does with the parts (`feed_append`). Inside a string literal it keeps the parts
read so far (`feed_spellsText`), and through a number it goes from one part to the next
(`feed_spellsNumber`).

After a number the scanner cannot know yet that it is complete. `Settled` is what it has in
common with a scanner that stands between two tokens : at the end of the text, and at every
character that may follow a value, both do the same.
-/

namespace Courier.Json

/-! ## The content of a string literal -/

namespace Literal

/-- A literal with one more part. -/
def add (l : Literal) : Piece → Literal
  | .char c => l.push c
  | .unit n => l.pushUnit n

theorem sound_add {l : Literal} (h : l.sound = false) (p : Piece) : (l.add p).sound = false := by
  obtain ⟨done, sound, high⟩ := l
  obtain rfl : sound = false := h
  cases p with
  | char c => cases high <;> rfl
  | unit n =>
    cases high with
    | none =>
      simp only [add, pushUnit, push, spoil]
      split
      · rfl
      · split <;> rfl
    | some m =>
      simp only [add, pushUnit, spoil]
      split <;> rfl

/-- A literal that is no text does not become one. -/
theorem toText?_of_not_sound {l : Literal} (h : l.sound = false) (ps : List Piece) :
    (ps.foldl add l).toText? = none := by
  induction ps generalizing l with
  | nil => simp [toText?, h]
  | cons p ps ih => exact ih (sound_add h p)

/-- A literal that waits for no second half becomes what it was, and the text of the parts. -/
theorem toText?_foldl_add (done : List Char) (ps : List Piece) :
    (ps.foldl add ⟨done, true, none⟩).toText? =
      (Piece.text? ps).map fun cs => String.ofList (done.reverse ++ cs) := by
  induction ps using Piece.text?.induct generalizing done with
  | case1 => simp [toText?, Piece.text?]
  | case2 c rest ih =>
    have hstep : add ⟨done, true, none⟩ (.char c) = ⟨c :: done, true, none⟩ := rfl
    rw [List.foldl_cons, hstep, ih, Piece.text?]
    cases Piece.text? rest <;> simp
  | case3 n hn m rest hm ih =>
    have hhigh : add ⟨done, true, none⟩ (.unit n) = ⟨done, true, some n⟩ := if_pos hn
    have hlow : add ⟨done, true, some n⟩ (.unit m) =
        ⟨Char.ofNat (0x10000 + (n - 0xD800) * 0x400 + (m - 0xDC00)) :: done, true, none⟩ :=
      if_pos hm
    rw [List.foldl_cons, hhigh, List.foldl_cons, hlow, ih, Piece.text?, if_pos hn]
    simp only [if_pos hm]
    cases Piece.text? rest <;> simp
  | case4 n hn m rest hm =>
    have hhigh : add ⟨done, true, none⟩ (.unit n) = ⟨done, true, some n⟩ := if_pos hn
    have hlow : add ⟨done, true, some n⟩ (.unit m) = ⟨done, false, none⟩ := if_neg hm
    rw [List.foldl_cons, hhigh, List.foldl_cons, hlow, toText?_of_not_sound rfl, Piece.text?,
      if_pos hn]
    simp only [if_neg hm, Option.map_none]
  | case5 n rest hn hrest =>
    have hhigh : add ⟨done, true, none⟩ (.unit n) = ⟨done, true, some n⟩ := if_pos hn
    rw [List.foldl_cons, hhigh]
    rcases rest with _ | ⟨c | m, rest⟩
    · rw [Piece.text?, if_pos hn]
      · rfl
      · simp
    · have hspoilt : add ⟨done, true, some n⟩ (.char c) = ⟨done, false, none⟩ := rfl
      rw [List.foldl_cons, hspoilt, toText?_of_not_sound rfl, Piece.text?, if_pos hn]
      · rfl
      · simp
    · exact absurd rfl (hrest m rest)
  | case6 n rest hn hn' =>
    have hspoilt : add ⟨done, true, none⟩ (.unit n) = ⟨done, false, none⟩ :=
      (if_neg hn).trans (if_pos hn')
    rw [List.foldl_cons, hspoilt, toText?_of_not_sound rfl, Piece.text?_unit hn, if_pos hn',
      Option.map_none]
  | case7 n rest hn hn' ih =>
    have hstep : add ⟨done, true, none⟩ (.unit n) = ⟨Char.ofNat n :: done, true, none⟩ :=
      (if_neg hn).trans (if_neg hn')
    rw [List.foldl_cons, hstep, ih, Piece.text?_unit hn, if_neg hn']
    cases Piece.text? rest <;> simp

end Literal

/-! ## Blanks and strings -/

/-- The scanner after some characters. -/
def Scan.feed (s : Scan) (cs : List Char) : Scan :=
  (cs.map some).foldl Scan.step s

namespace Scan

theorem feed_cons (s : Scan) (c : Char) (cs : List Char) :
    s.feed (c :: cs) = (s.step (some c)).feed cs :=
  rfl

theorem feed_append (s : Scan) (cs cs' : List Char) :
    s.feed (cs ++ cs') = (s.feed cs).feed cs' := by
  rw [feed, feed, feed, List.map_append, List.foldl_append]

variable (ts : List Token)

theorem start_space {c : Char} (h : isSpace c = true) : start ts c = ⟨ts, .idle⟩ := by
  simp only [isSpace, Bool.or_eq_true, beq_iff_eq, or_assoc] at h
  rcases h with rfl | rfl | rfl | rfl <;> rfl

theorem feed_blank {cs : List Char} (h : Blank cs) : feed ⟨ts, .idle⟩ cs = ⟨ts, .idle⟩ := by
  induction cs with
  | nil => rfl
  | cons c cs ih =>
    obtain ⟨hc, hcs⟩ := List.forall_mem_cons.1 h
    have hstep : step ⟨ts, .idle⟩ (some c) = ⟨ts, .idle⟩ := start_space ts hc
    rw [feed_cons, hstep, ih hcs]

/-- The digits of a number below sixteen read as that number. -/
theorem hexDigit?_digitChar : ∀ d < 16, Text.hexDigit? (Nat.digitChar d) = some d := by
  decide

theorem step_hex {c : Char} {left value d : Nat} {l : Literal} (h : Text.hexDigit? c = some d) :
    step ⟨ts, .hex (left + 1) value l⟩ (some c) = ⟨ts, .hex left (16 * value + d) l⟩ := by
  simp only [step, h]

theorem step_hex_last {c : Char} {value d : Nat} {l : Literal} (h : Text.hexDigit? c = some d) :
    step ⟨ts, .hex 0 value l⟩ (some c) = ⟨ts, .string (l.pushUnit (16 * value + d))⟩ := by
  simp only [step, h]

/-- Inside a literal the written form of a part adds just the part. -/
theorem feed_piece {p : Piece} {cs : List Char} (h : p.Spells cs) (l : Literal) :
    feed ⟨ts, .string l⟩ cs = ⟨ts, .string (l.add p)⟩ := by
  cases h with
  | @plain c hq hb hc =>
    have hstep : step ⟨ts, .string l⟩ (some c) = ⟨ts, .string (l.push c)⟩ := by
      simp only [step, beq_iff_eq, if_neg hq, if_neg hb, if_neg hc]
    rw [feed_cons, hstep]
    rfl
  | @letter l' c hl =>
    simp only [Piece.letters, List.mem_cons, Prod.mk.injEq, List.not_mem_nil, or_false] at hl
    rcases hl with ⟨rfl, rfl⟩ | ⟨rfl, rfl⟩ | ⟨rfl, rfl⟩ | ⟨rfl, rfl⟩ | ⟨rfl, rfl⟩ | ⟨rfl, rfl⟩ |
      ⟨rfl, rfl⟩ | ⟨rfl, rfl⟩ <;> rfl
  | @digits a b c d _ _ _ _ ha hb hc hd =>
    have hopen : feed ⟨ts, .string l⟩ ['\\', 'u'] = ⟨ts, .hex 3 0 l⟩ := rfl
    rw [show ['\\', 'u', a, b, c, d] = ['\\', 'u'] ++ [a, b, c, d] from rfl, feed_append, hopen,
      feed_cons, step_hex ts ha, feed_cons, step_hex ts hb, feed_cons, step_hex ts hc, feed_cons,
      step_hex_last ts hd, Nat.mul_zero, Nat.zero_add]
    rfl

theorem feed_pieces : ∀ {parts : List (Piece × List Char)}, (∀ p ∈ parts, p.1.Spells p.2) →
    ∀ l : Literal, feed ⟨ts, .string l⟩ (parts.flatMap Prod.snd) =
      ⟨ts, .string ((parts.map Prod.fst).foldl Literal.add l)⟩
  | [], _, _ => rfl
  | p :: parts, h, l => by
    obtain ⟨hp, hparts⟩ := List.forall_mem_cons.1 h
    rw [List.flatMap_cons, feed_append, feed_piece ts hp, feed_pieces hparts]
    rfl

/-- The literal of a string is one token, and carries the string. -/
theorem feed_spellsText {s : Option String} {cs : List Char} (h : SpellsText s cs) :
    feed ⟨ts, .idle⟩ cs = ⟨.str s :: ts, .idle⟩ := by
  cases h with
  | @mk parts hparts =>
    have hopen : step ⟨ts, .idle⟩ (some '"') = ⟨ts, .string .empty⟩ := rfl
    have hclose : ∀ l : Literal, feed ⟨ts, .string l⟩ ['"'] = ⟨.str l.toText? :: ts, .idle⟩ :=
      fun _ => rfl
    rw [feed_cons, hopen, feed_append, feed_pieces ts hparts, hclose, Literal.empty,
      Literal.toText?_foldl_add]
    rfl

theorem feed_spellsName {name : Option String} {cs : List Char} (h : SpellsName name cs) :
    feed ⟨ts, .idle⟩ cs = ⟨.str name :: ts, .idle⟩ := by
  cases h with
  | mk hbefore hname hafter =>
    rw [feed_append, feed_blank ts hbefore, feed_append, feed_spellsText ts hname,
      feed_blank _ hafter]

/-! ## Numbers -/

variable {n : Numeral} {cs : List Char}

theorem isDigit_of_digit? {c : Char} {d : Nat} (h : digit? c = some d) : c.isDigit = true := by
  cases hc : c.isDigit with
  | true => rfl
  | false => simp [digit?, hc] at h

/-- A number starts with its first digit. -/
theorem start_digit {c : Char} {d : Nat} (h : digit? c = some d) :
    start ts c = ⟨ts, .number (if d = 0 then .zero else .whole) ⟨false, [d], none, none⟩⟩ := by
  have hdigit := isDigit_of_digit? h
  have hspace : ¬isSpace c = true := by
    intro hs
    simp only [isSpace, Bool.or_eq_true, beq_iff_eq, or_assoc] at hs
    rcases hs with rfl | rfl | rfl | rfl <;> cases hdigit
  unfold start
  split
  all_goals first
    | cases hdigit
    | skip
  rw [if_neg hspace, h]

/-- In a phase that goes on with digits each of them is added to the part of the number. -/
theorem feed_digits (p : Phase) (put : List Nat → Numeral)
    (hp : ∀ c d ds, digit? c = some d →
      step ⟨ts, .number p (put ds)⟩ (some c) = ⟨ts, .number p (put (d :: ds))⟩) :
    ∀ {cs : List Char} {ds : List Nat} (acc : List Nat), cs.map digit? = ds.map some →
      feed ⟨ts, .number p (put acc)⟩ cs = ⟨ts, .number p (put (ds.reverse ++ acc))⟩
  | [], ds, acc, h => by
    obtain rfl : ds = [] := by simpa using h
    rfl
  | c :: cs, [], acc, h => by simp at h
  | c :: cs, d :: ds, acc, h => by
    obtain ⟨hc, hcs⟩ := List.cons.inj h
    rw [feed_cons, hp c d acc hc, feed_digits p put hp (d :: acc) hcs, List.reverse_cons,
      List.append_assoc, List.singleton_append]

/-- The phases in which a number may end. -/
def Ends (p : Phase) : Prop :=
  p = .zero ∨ p = .whole ∨ p = .fraction ∨ p = .power

/-- Sign and whole part. -/
theorem feed_spellsWhole {negative : Bool} {whole : List Nat} {cs₁ cs₂ : List Char}
    (h₁ : SpellsSign negative cs₁) (h₂ : SpellsWhole whole cs₂) :
    ∃ p, (p = .zero ∨ p = .whole) ∧
      feed ⟨ts, .idle⟩ (cs₁ ++ cs₂) = ⟨ts, .number p ⟨negative, whole.reverse, none, none⟩⟩ := by
  have hfirst : ∀ (c : Char) (d : Nat) (cs : List Char), digit? c = some d →
      feed ⟨ts, .idle⟩ (cs₁ ++ c :: cs) =
        feed ⟨ts, .number (if d = 0 then .zero else .whole) ⟨negative, [d], none, none⟩⟩ cs := by
    intro c d cs hc
    cases h₁ with
    | none =>
      have hstep : step ⟨ts, .idle⟩ (some c) = _ := start_digit ts hc
      rw [List.nil_append, feed_cons, hstep]
    | minus =>
      have hminus : step ⟨ts, .idle⟩ (some '-') =
        ⟨ts, .number .sign ⟨true, [], none, none⟩⟩ := rfl
      have hstep : step ⟨ts, .number .sign ⟨true, [], none, none⟩⟩ (some c) =
          ⟨ts, .number (if d = 0 then .zero else .whole) ⟨true, [d], none, none⟩⟩ := by
        simp only [step, numeral, hc]
      rw [List.singleton_append, feed_cons, hminus, feed_cons, hstep]
  cases h₂ with
  | zero => exact ⟨.zero, .inl rfl, hfirst '0' 0 [] rfl⟩
  | digits hds hzero =>
    obtain ⟨hne, hds⟩ := hds
    rcases cs₂ with _ | ⟨c, cs⟩
    · exact absurd rfl hne
    rcases whole with _ | ⟨d, ds⟩
    · simp at hds
    obtain ⟨hc, hcs⟩ := List.cons.inj hds
    have hd : d ≠ 0 := fun hd => hzero (by rw [hd]; rfl)
    refine ⟨.whole, .inr rfl, ?_⟩
    have hmore := feed_digits ts .whole (fun ds => ⟨negative, ds, none, none⟩)
      (fun c d ds hc => by simp only [step, numeral, hc]) [d] hcs
    rw [hfirst c d cs hc, if_neg hd, hmore, List.reverse_cons]

theorem feed_spellsFraction {negative : Bool} {whole : List Nat} {fraction : Option (List Nat)}
    {p : Phase} (hp : p = .zero ∨ p = .whole) (h : SpellsFraction fraction cs) :
    ∃ p', (p' = .zero ∨ p' = .whole ∨ p' = .fraction) ∧
      feed ⟨ts, .number p ⟨negative, whole, none, none⟩⟩ cs =
        ⟨ts, .number p' ⟨negative, whole, fraction.map List.reverse, none⟩⟩ := by
  cases h with
  | none => exact ⟨p, hp.imp_right .inl, rfl⟩
  | @digits ds cs hds =>
    obtain ⟨hne, hds⟩ := hds
    rcases cs with _ | ⟨c, cs⟩
    · exact absurd rfl hne
    rcases ds with _ | ⟨d, ds⟩
    · simp at hds
    obtain ⟨hc, hcs⟩ := List.cons.inj hds
    have hpoint : step ⟨ts, .number p ⟨negative, whole, none, none⟩⟩ (some '.') =
        ⟨ts, .number .point ⟨negative, whole, none, none⟩⟩ := by
      rcases hp with rfl | rfl <;> rfl
    have hfirst : step ⟨ts, .number .point ⟨negative, whole, none, none⟩⟩ (some c) =
        ⟨ts, .number .fraction ⟨negative, whole, some [d], none⟩⟩ := by
      simp only [step, numeral, hc]
    have hmore := feed_digits ts .fraction (fun ds => ⟨negative, whole, some ds, none⟩)
      (fun c d ds hc => by simp only [step, numeral, hc, Option.getD_some]) [d] hcs
    refine ⟨.fraction, .inr (.inr rfl), ?_⟩
    rw [feed_cons, hpoint, feed_cons, hfirst, hmore, Option.map_some, List.reverse_cons]

theorem feed_spellsPower {negative : Bool} {whole : List Nat} {fraction : Option (List Nat)}
    {power : Option (Bool × List Nat)} {p : Phase}
    (hp : p = .zero ∨ p = .whole ∨ p = .fraction) (h : SpellsPower power cs) :
    ∃ p', Ends p' ∧ feed ⟨ts, .number p ⟨negative, whole, fraction, none⟩⟩ cs =
      ⟨ts, .number p' ⟨negative, whole, fraction, power.map fun p => (p.1, p.2.reverse)⟩⟩ := by
  cases h with
  | none => exact ⟨p, hp.imp_right (Or.imp_right .inl), rfl⟩
  | @digits m minus ds sign cs hm hsign hds =>
    obtain ⟨hne, hds⟩ := hds
    rcases cs with _ | ⟨c, cs⟩
    · exact absurd rfl hne
    rcases ds with _ | ⟨d, ds⟩
    · simp at hds
    obtain ⟨hc, hcs⟩ := List.cons.inj hds
    have hmark : step ⟨ts, .number p ⟨negative, whole, fraction, none⟩⟩ (some m) =
        ⟨ts, .number .mark ⟨negative, whole, fraction, none⟩⟩ := by
      rcases hp with rfl | rfl | rfl <;> rcases hm with rfl | rfl <;> rfl
    have hfirst : feed ⟨ts, .number .mark ⟨negative, whole, fraction, none⟩⟩ (sign ++ c :: cs) =
        feed ⟨ts, .number .power ⟨negative, whole, fraction, some (minus, [d])⟩⟩ cs := by
      have hdigit : ∀ s, step ⟨ts, .number .markSign ⟨negative, whole, fraction, some (s, [])⟩⟩
          (some c) = ⟨ts, .number .power ⟨negative, whole, fraction, some (s, [d])⟩⟩ := by
        intro s
        simp only [step, numeral, hc, Option.getD_some]
      cases hsign with
      | none =>
        have hstep : step ⟨ts, .number .mark ⟨negative, whole, fraction, none⟩⟩ (some c) =
            ⟨ts, .number .power ⟨negative, whole, fraction, some (false, [d])⟩⟩ := by
          simp only [step, numeral, hc]
        rw [List.nil_append, feed_cons, hstep]
      | plus =>
        have hplus : step ⟨ts, .number .mark ⟨negative, whole, fraction, none⟩⟩ (some '+') =
            ⟨ts, .number .markSign ⟨negative, whole, fraction, some (false, [])⟩⟩ := rfl
        rw [List.singleton_append, feed_cons, hplus, feed_cons, hdigit]
      | minus =>
        have hminus : step ⟨ts, .number .mark ⟨negative, whole, fraction, none⟩⟩ (some '-') =
            ⟨ts, .number .markSign ⟨negative, whole, fraction, some (true, [])⟩⟩ := rfl
        rw [List.singleton_append, feed_cons, hminus, feed_cons, hdigit]
    have hmore := feed_digits ts .power (fun ds => ⟨negative, whole, fraction, some (minus, ds)⟩)
      (fun c d ds hc => by simp only [step, numeral, hc, Option.getD_some]) [d] hcs
    refine ⟨.power, .inr (.inr (.inr rfl)), ?_⟩
    rw [feed_cons, hmark, hfirst, hmore, Option.map_some, List.reverse_cons]

theorem feed_spellsNumber (h : SpellsNumber n cs) :
    ∃ p, Ends p ∧ feed ⟨ts, .idle⟩ cs = ⟨ts, .number p n⟩ := by
  cases h with
  | mk h₁ h₂ h₃ h₄ =>
    obtain ⟨p₂, hp₂, hwhole⟩ := feed_spellsWhole ts h₁ h₂
    obtain ⟨p₃, hp₃, hfraction⟩ := feed_spellsFraction ts hp₂ h₃
    obtain ⟨p₄, hp₄, hpower⟩ := feed_spellsPower ts hp₃ h₄
    refine ⟨p₄, hp₄, ?_⟩
    rw [← List.append_assoc, feed_append, hwhole, feed_append, hfraction, hpower]

/-! ## After a value -/

/-- The characters that may follow a value. -/
def followers : List Char :=
  [' ', '\n', '\r', '\t', ',', ']', '\x7d']

/-- The tokens are read, latest first, and what may follow a value will be read next. -/
structure Settled (s : Scan) (ts : List Token) : Prop where
  finish : s.finish = ts.reverse
  step : ∀ c ∈ followers, s.step (some c) = start ts c

theorem settled_idle : Settled ⟨ts, .idle⟩ ts :=
  ⟨rfl, fun _ _ => rfl⟩

theorem settled_number {p : Phase} (hp : Ends p) (n : Numeral) :
    Settled ⟨ts, .number p n⟩ (.num n.toNumber? :: ts) := by
  refine ⟨?_, fun c hc => ?_⟩
  · rcases hp with rfl | rfl | rfl | rfl <;> rfl
  · simp only [followers, List.mem_cons, List.not_mem_nil, or_false] at hc
    rcases hp with rfl | rfl | rfl | rfl <;>
      rcases hc with rfl | rfl | rfl | rfl | rfl | rfl | rfl <;> rfl

variable {ts}

theorem Settled.blank {s : Scan} (h : Settled s ts) (hcs : Blank cs) : Settled (s.feed cs) ts := by
  rcases cs with _ | ⟨c, cs⟩
  · exact h
  · obtain ⟨hc, hcs⟩ := List.forall_mem_cons.1 hcs
    have hmem : c ∈ followers := by
      simp only [isSpace, Bool.or_eq_true, beq_iff_eq, or_assoc] at hc
      rcases hc with rfl | rfl | rfl | rfl <;> decide
    rw [feed_cons, h.step c hmem, start_space ts hc, feed_blank ts hcs]
    exact settled_idle ts

end Scan

end Courier.Json
