import Courier.Proofs.Exchange.Verdict
import Courier.Proofs.Text.Blank
import Courier.Proofs.Text.Lossy

/-!
# The text kept of an error body

An answer with an unexpected status leaves the text of the first bytes of its body behind. If the
body is a text that fits, this is the text without the blanks around it. Of a longer text it is the
longest beginning that fits, with one mark for a character that is cut in two, and again without the
blanks around it : these are cut off last, so that blanks before the mark stay
(`unexpected_excerpt`). Whatever the bytes are, what is kept has no blanks around it, and it has at
most three times as many bytes as may be read.
-/

namespace Courier

open Utf8 (LongestFit Cuts)

theorem Text.length_encode_trimList_le (cs : List Char) :
    (Utf8.encode (Text.trimList cs)).length ≤ (Utf8.encode cs).length := by
  obtain ⟨before, after, hcs, -⟩ := Text.trimList_eq_iff.1 (rfl : Text.trimList cs = _)
  rw [hcs, Utf8.encode_append, Utf8.encode_append, List.length_append, List.length_append, ← hcs]
  omega

namespace Body

theorem excerpt_ofString (t : String) : excerpt (Utf8.ofString t) = Text.trim t := by
  rw [excerpt, Utf8.ofString, Utf8.decodeLossy_encode, Text.trim]

/-- No blank stands at either end of a text that is kept. -/
theorem not_isBlank_excerpt (bytes : List UInt8) (c : Char)
    (h : (excerpt bytes).toList.head? = some c ∨ (excerpt bytes).toList.getLast? = some c) :
    Text.isBlank c = false := by
  rw [excerpt, String.toList_ofList] at h
  obtain ⟨before, after, -, -, -, hhead, hlast⟩ :=
    Text.trimList_eq_iff.1 (rfl : Text.trimList (Utf8.decodeLossy bytes) = _)
  exact h.elim (hhead c) (hlast c)

theorem length_excerpt_le (bytes : List UInt8) :
    (Utf8.ofString (excerpt bytes)).length ≤ 3 * bytes.length := by
  rw [Utf8.ofString, excerpt, String.toList_ofList]
  exact (Text.length_encode_trimList_le _).trans (Utf8.length_decodeLossy_le bytes)

/-- What is kept of the first bytes of a text that has more of them. -/
theorem excerpt_take_ofString {cap : Nat} {t : String} {start : List Char}
    (h : LongestFit cap t.toList start) (hlong : cap < (Utf8.ofString t).length) :
    (Cuts cap t.toList → excerpt ((Utf8.ofString t).take cap) =
        Text.trim (String.ofList (start ++ ['\uFFFD']))) ∧
      (¬Cuts cap t.toList → excerpt ((Utf8.ofString t).take cap) =
        Text.trim (String.ofList start)) := by
  constructor
  · intro hcuts
    rw [excerpt, Utf8.ofString, Utf8.decodeLossy_of_cuts h hcuts, Text.trim, String.toList_ofList]
  · intro hcuts
    rw [excerpt, Utf8.ofString, Utf8.decodeLossy_of_not_cuts h hlong hcuts, Text.trim,
      String.toList_ofList]

end Body

/-- An answer that is neither a delivery nor a report of outdated rules leaves a text without blanks
around it, of at most three times as many bytes as are read. If the body is a text, this is the text
or, where that has too many bytes, the longest beginning of it that fits, followed by one U+FFFD
exactly if a character is cut in two; always without the blanks around it. -/
theorem unexpected_excerpt {code : Nat} (h412 : code ≠ 412) (h406 : code ≠ 406)
    (hs : code < 200 ∨ 300 ≤ code) (b : Body) :
    ∃ text, Outcome.judge (.answered ⟨code, b⟩) = .error (.unexpectedStatus code text) ∧
      (∀ c, text.toList.head? = some c ∨ text.toList.getLast? = some c →
        Text.isBlank c = false) ∧
      (Utf8.ofString text).length ≤ 3 * maxErrorBodyBytes ∧
      ∀ t, b.received = Utf8.ofString t →
        ((Utf8.ofString t).length ≤ maxErrorBodyBytes → text = Text.trim t) ∧
        (maxErrorBodyBytes < (Utf8.ofString t).length →
          ∃ start, LongestFit maxErrorBodyBytes t.toList start ∧
            (Cuts maxErrorBodyBytes t.toList →
              text = Text.trim (String.ofList (start ++ ['\uFFFD']))) ∧
            (¬Cuts maxErrorBodyBytes t.toList → text = Text.trim (String.ofList start))) := by
  refine ⟨Body.excerpt (b.received.take maxErrorBodyBytes), ?_, Body.not_isBlank_excerpt _, ?_,
    fun t ht => ⟨fun hshort => ?_, fun hlong => ?_⟩⟩
  · rw [(Verdict.unexpected h412 h406 hs).eq_judge, ← List.take_take, List.take_length]
  · refine (Body.length_excerpt_le _).trans (Nat.mul_le_mul_left 3 ?_)
    rw [List.length_take]
    exact Nat.min_le_left _ _
  · rw [ht, List.take_of_length_le hshort, Body.excerpt_ofString]
  · obtain ⟨start, hstart⟩ := Utf8.exists_longestFit hlong
    rw [ht]
    exact ⟨start, hstart, Body.excerpt_take_ofString hstart hlong⟩

/-- A text that is one byte too long, and whose last character takes two bytes. -/
def overlong : String :=
  String.ofList (List.replicate (maxErrorBodyBytes - 1) 'a' ++ ['ü'])

theorem length_encode_replicate (n : Nat) : (Utf8.encode (List.replicate n 'a')).length = n := by
  induction n with
  | zero => rfl
  | succ n ih =>
    rw [List.replicate_succ, Utf8.encode_cons, List.length_append, ih, Nat.add_comm]
    rfl

theorem length_overlong : (Utf8.ofString overlong).length = maxErrorBodyBytes + 1 := by
  rw [Utf8.ofString, overlong, String.toList_ofList, Utf8.encode_append, List.length_append,
    length_encode_replicate]
  rfl

theorem cuts_overlong : Cuts maxErrorBodyBytes overlong.toList := by
  refine ⟨List.replicate (maxErrorBodyBytes - 1) 'a', 'ü', [], String.toList_ofList, ?_, ?_⟩
  · rw [length_encode_replicate]
    decide
  · rw [Utf8.encode_append, List.length_append, length_encode_replicate]
    decide

/-- The last character of an error body is cut in two, and the stream breaks after it. -/
theorem unexpected_excerpt_overlong :
    ∃ start, LongestFit maxErrorBodyBytes overlong.toList start ∧
      Outcome.judge (.answered ⟨503, ⟨[Utf8.ofString overlong], none, true⟩⟩) =
        .error (.unexpectedStatus 503 (Text.trim (String.ofList (start ++ ['\uFFFD'])))) := by
  obtain ⟨text, hjudge, -, -, htext⟩ := @unexpected_excerpt 503 (by decide) (by decide)
    (.inr (by decide)) ⟨[Utf8.ofString overlong], none, true⟩
  obtain ⟨start, hstart, hcuts, -⟩ := (htext overlong (List.append_nil _)).2
    (length_overlong ▸ Nat.lt_succ_self _)
  exact ⟨start, hstart, hcuts cuts_overlong ▸ hjudge⟩

end Courier
