import Courier.Url.Escape
import Mathlib.Tactic.ByContra
import Mathlib.Tactic.SplitIfs

/-!
# Escaped texts

What a part of an address writes is clean : none of its characters would be escaped again
(`clean_write`), so that a clean text is written as it is (`write_of_clean`). What a part escapes
does not stand in it, and least of all a blank (`Clean.not_mem`, `Clean.blank_lt`). Writing brings
in nothing but percent signs and hexadecimal digits (`mem_write`).
-/

namespace Courier.Url

theorem mem_escapeByte {b : UInt8} {c : Char} (h : c ∈ escapeByte b) :
    c = '%' ∨ ∃ n < 16, c = (Nat.digitChar n).toUpper := by
  have hb := b.toNat_lt
  simp only [escapeByte, List.mem_cons, List.not_mem_nil, or_false] at h
  rcases h with h | h | h
  · exact .inl h
  · exact .inr ⟨_, by omega, h⟩
  · exact .inr ⟨_, by omega, h⟩

namespace Reserve

/-- No character of the text is one that the part escapes. -/
def Clean (r : Reserve) (cs : List Char) : Prop :=
  ∀ c ∈ cs, r.escapes c = false

variable {r : Reserve} {cs : List Char} {c : Char}

theorem clean_of_all (h : cs.all (!r.escapes ·) = true) : r.Clean cs := fun c hc => by
  simpa using List.all_eq_true.1 h c hc

theorem write_of_clean (h : r.Clean cs) : r.write cs = cs := by
  induction cs with
  | nil => rfl
  | cons c cs ih =>
    have hc : r.writeChar c = [c] := by
      rw [writeChar, if_neg (by simp [h c List.mem_cons_self])]
    rw [write, List.flatMap_cons, hc, ← write, ih fun d hd => h d (List.mem_cons_of_mem c hd)]
    rfl

/-- What stands in a written text stood there before or comes from an escape. -/
theorem mem_write (h : c ∈ r.write cs) :
    (c ∈ cs ∧ r.escapes c = false) ∨ c = '%' ∨ ∃ n < 16, c = (Nat.digitChar n).toUpper := by
  obtain ⟨d, hd, hc⟩ := List.mem_flatMap.1 h
  rw [writeChar] at hc
  split at hc
  · obtain ⟨b, -, hb⟩ := List.mem_flatMap.1 hc
    exact .inr (mem_escapeByte hb)
  · next hesc =>
    obtain rfl := List.mem_singleton.1 hc
    exact .inl ⟨hd, by simpa using hesc⟩

/-- No part escapes what escapes are made of. -/
theorem escapes_digit (r : Reserve) : ∀ n < 16, r.escapes (Nat.digitChar n).toUpper = false := by
  cases r <;> decide +kernel

theorem clean_write (r : Reserve) (cs : List Char) : r.Clean (r.write cs) := by
  intro c hc
  obtain ⟨-, hesc⟩ | rfl | ⟨n, hn, rfl⟩ := mem_write hc
  · exact hesc
  · cases r <;> decide
  · exact escapes_digit r n hn

theorem encodeChar_ne_nil (c : Char) : Utf8.encodeChar c ≠ [] := by
  rw [Utf8.encodeChar]
  split_ifs <;> exact List.cons_ne_nil _ _

theorem write_cons_ne_nil (c : Char) (cs : List Char) : r.write (c :: cs) ≠ [] := by
  have hc : r.writeChar c ≠ [] := by
    rw [writeChar]
    split
    · obtain ⟨b, bytes, hb⟩ := List.exists_cons_of_ne_nil (encodeChar_ne_nil c)
      rw [hb, List.flatMap_cons]
      exact List.cons_ne_nil _ _
    · exact List.cons_ne_nil _ _
  intro h
  exact hc (List.append_eq_nil_iff.1 h).1

theorem Clean.not_mem (h : r.Clean cs) (hc : r.escapes c = true) : c ∉ cs := by
  intro hmem
  cases (h c hmem).symm.trans hc

theorem Clean.append {cs' : List Char} (h : r.Clean cs) (h' : r.Clean cs') : r.Clean (cs ++ cs') :=
  fun c hc => (List.mem_append.1 hc).elim (h c) (h' c)

/-- The characters of a part that escapes the blank are past it. -/
theorem Clean.blank_lt (h : r.Clean cs) (hr : r ≠ .control) : ∀ c ∈ cs, 0x20 < c.toNat := by
  intro c hc
  by_contra hle
  rcases Nat.lt_or_eq_of_le (Nat.not_lt.1 hle) with hlt | heq
  · exact h.not_mem (c := c) (by simp [escapes, hlt]) hc
  · obtain rfl : c = ' ' := Char.toNat_inj.1 heq
    refine h.not_mem ?_ hc
    cases r with
    | control => exact absurd rfl hr
    | _ => decide

end Reserve

end Courier.Url
