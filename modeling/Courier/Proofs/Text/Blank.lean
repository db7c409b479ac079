import Courier.Text.Blank
import Mathlib.Data.List.DropRight
import Mathlib.Data.List.Induction
import Mathlib.Data.List.TakeWhile

/-!
# Trimmed texts

What is cut off the end of a text are the last characters with a property
(`dropEndWhile_append_rtakeWhile`), and nothing is cut off exactly if the last one does not have it
(`dropEndWhile_eq_self_iff`).

A text is its core with blanks on both sides, where the core neither starts nor ends with one
(`Trims`). There is one core only, and trimming finds it (`trimList_eq_iff`).
-/

namespace Courier.Text

/-- The text is the core between blanks, and these end where the core starts. -/
def Trims (cs core : List Char) : Prop :=
  ∃ before after, cs = before ++ (core ++ after) ∧ (∀ c ∈ before, isBlank c = true) ∧
    (∀ c ∈ after, isBlank c = true) ∧ (∀ c, core.head? = some c → isBlank c = false) ∧
      ∀ c, core.getLast? = some c → isBlank c = false

variable {p : Char → Bool} {cs core : List Char}

theorem dropWhile_eq_self (h : ∀ c, cs.head? = some c → p c = false) : cs.dropWhile p = cs := by
  cases cs with
  | nil => rfl
  | cons c cs => rw [List.dropWhile_cons_of_neg (by simp [h c rfl])]

theorem head?_dropWhile_eq_false {c : Char} (h : (cs.dropWhile p).head? = some c) :
    p c = false := by
  have hfalse := List.head?_dropWhile_not p cs
  rw [h] at hfalse
  simpa using hfalse

theorem prefix_dropEndWhile (p : Char → Bool) (cs : List Char) : dropEndWhile p cs <+: cs :=
  List.rdropWhile_prefix p cs

/-- What is left and what is cut off. -/
theorem dropEndWhile_append_rtakeWhile (p : Char → Bool) (cs : List Char) :
    dropEndWhile p cs ++ cs.rtakeWhile p = cs := by
  rw [dropEndWhile, List.rtakeWhile, ← List.reverse_append, List.takeWhile_append_dropWhile,
    List.reverse_reverse]

theorem getLast?_dropEndWhile_eq_false {c : Char} (h : (dropEndWhile p cs).getLast? = some c) :
    p c = false := by
  rw [dropEndWhile, List.getLast?_reverse] at h
  exact head?_dropWhile_eq_false h

theorem dropEndWhile_eq_self_iff :
    dropEndWhile p cs = cs ↔ ∀ c, cs.getLast? = some c → p c = false := by
  refine List.rdropWhile_eq_self_iff.trans ?_
  rcases cs.eq_nil_or_concat with rfl | ⟨front, c, rfl⟩ <;> simp

/-- The first character is cut off last. -/
theorem dropEndWhile_cons (p : Char → Bool) (c : Char) (cs : List Char) :
    dropEndWhile p (c :: cs) =
      if dropEndWhile p cs = [] then dropEndWhile p [c] else c :: dropEndWhile p cs := by
  simp only [dropEndWhile, List.reverse_cons, List.dropWhile_append, List.isEmpty_iff,
    List.reverse_eq_nil_iff]
  split <;> simp

/-- Nothing is dropped from before the last character that is kept. -/
theorem dropEndWhile_append_of_neg {p : Char → Bool} {c : Char} (h : p c = false)
    (cs rest : List Char) :
    dropEndWhile p (cs ++ c :: rest) = cs ++ c :: dropEndWhile p rest := by
  induction rest using List.reverseRecOn with
  | nil => exact List.rdropWhile_concat_neg p cs c (by simp [h])
  | append_singleton rest d ih =>
    have hassoc : cs ++ c :: (rest ++ [d]) = (cs ++ c :: rest) ++ [d] := by simp
    rw [hassoc]
    by_cases hd : p d = true
    · exact (List.rdropWhile_concat_pos p _ d hd).trans
        (ih.trans (congrArg (cs ++ c :: ·) (List.rdropWhile_concat_pos p rest d hd).symm))
    · exact (List.rdropWhile_concat_neg p _ d hd).trans
        (hassoc.symm.trans (congrArg (cs ++ c :: ·) (List.rdropWhile_concat_neg p rest d hd).symm))

/-- Trimming gives the core of a text. -/
theorem trimList_eq_iff : trimList cs = core ↔ Trims cs core := by
  constructor
  · rintro rfl
    have hfront := @List.takeWhile_append_dropWhile _ isBlank cs
    have hcore := dropEndWhile_append_rtakeWhile isBlank (cs.dropWhile isBlank)
    refine ⟨cs.takeWhile isBlank, _, (hcore ▸ hfront).symm, fun c hc => ?_, fun c hc => ?_,
      fun c hc => ?_, fun c hc => getLast?_dropEndWhile_eq_false hc⟩
    · exact List.mem_takeWhile_imp hc
    · exact List.mem_rtakeWhile_imp hc
    · refine @head?_dropWhile_eq_false _ cs _ ?_
      rw [← hcore, List.head?_append, ← trimList, hc, Option.some_or]
  · rintro ⟨before, after, rfl, hbefore, hafter, hhead, hlast⟩
    rw [trimList, dropEndWhile, List.dropWhile_append_of_pos hbefore]
    rcases core.eq_nil_or_concat with rfl | ⟨_, _, hcore⟩
    · simp [List.dropWhile_eq_nil_iff.2 hafter]
    · have hkeep : (core ++ after).dropWhile isBlank = core ++ after := by
        refine dropWhile_eq_self fun c hc => hhead c ?_
        simpa [hcore] using hc
      have hdrop : core.reverse.dropWhile isBlank = core.reverse := by
        refine dropWhile_eq_self fun c hc => hlast c ?_
        rwa [List.head?_reverse] at hc
      rw [hkeep, List.reverse_append, List.dropWhile_append_of_pos (by simpa using hafter), hdrop,
        List.reverse_reverse]

theorem trim_eq_iff {s t : String} : trim s = t ↔ Trims s.toList t.toList := by
  rw [trim, ← trimList_eq_iff]
  constructor
  · rintro rfl
    rw [String.toList_ofList]
  · intro h
    rw [h, String.ofList_toList]

/-- Nothing is left of a text that holds nothing but blanks. -/
theorem trimList_eq_nil_iff : trimList cs = [] ↔ ∀ c ∈ cs, isBlank c = true := by
  rw [trimList_eq_iff]
  constructor
  · rintro ⟨before, after, rfl, hbefore, hafter, -⟩ c hc
    exact (List.mem_append.1 hc).elim (hbefore c) (hafter c)
  · intro h
    exact ⟨cs, [], (List.append_nil cs).symm, h, by simp, by simp, by simp⟩

end Courier.Text
