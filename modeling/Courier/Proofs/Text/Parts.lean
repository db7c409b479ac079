/-!
# Parts of texts

The parts of a text between the occurrences of a character are what `List.splitOn` gives
(`eq_splitOn`), so that joined texts are taken apart by the lemmas on it. Here is what else is used
of parts : what they and joined texts are made of (`of_mem_splitOn`, `forall_mem_intercalate`), and
texts with the character before each of them (`flatMap_cons`).
-/

namespace Courier.Text

variable {sep c : Char} {cs : List Char}

/-- A function that goes on with the first part or starts a new one gives the parts of a text. -/
theorem eq_splitOn {f : List Char → List (List Char)} (hnil : f [] = [[]])
    (hcons : ∀ c cs, f (c :: cs) =
      if c = sep then [] :: f cs
      else
        match f cs with
        | [] => [[c]]
        | part :: parts => (c :: part) :: parts) (cs : List Char) :
    f cs = cs.splitOn sep := by
  induction cs with
  | nil => rw [hnil, List.splitOn_nil]
  | cons c cs ih =>
    rw [hcons, List.splitOn_cons_eq_if_modifyHead, ih]
    by_cases hc : c = sep
    · rw [if_pos hc, if_pos (beq_iff_eq.2 hc)]
    · rw [if_neg hc, if_neg (by simpa using hc)]
      obtain ⟨part, parts, hcs⟩ := List.exists_cons_of_ne_nil (List.splitOn_ne_nil sep cs)
      rw [hcs]
      rfl

/-- What stands in a part stands in the text and is no separator. -/
theorem of_mem_splitOn {part : List Char} (h : part ∈ cs.splitOn sep) (hc : c ∈ part) :
    c ∈ cs ∧ c ≠ sep := by
  induction cs generalizing part with
  | nil =>
    rw [List.splitOn_nil] at h
    obtain rfl := List.mem_singleton.1 h
    cases hc
  | cons d cs ih =>
    rw [List.splitOn_cons_eq_if_modifyHead] at h
    split at h
    · rcases List.mem_cons.1 h with rfl | h
      · cases hc
      · exact (ih h hc).imp_left (List.mem_cons_of_mem d)
    · next hd =>
      obtain ⟨first, parts, hcs⟩ := List.exists_cons_of_ne_nil (List.splitOn_ne_nil sep cs)
      rw [hcs, List.modifyHead_cons] at h
      rw [hcs] at ih
      rcases List.mem_cons.1 h with rfl | h
      · rcases List.mem_cons.1 hc with rfl | hc
        · exact ⟨List.mem_cons_self, by simpa using hd⟩
        · exact (ih List.mem_cons_self hc).imp_left (List.mem_cons_of_mem d)
      · exact (ih (List.mem_cons_of_mem first h) hc).imp_left (List.mem_cons_of_mem d)

/-- What joined texts are made of. -/
theorem forall_mem_intercalate {p : Char → Prop} (hsep : p sep) :
    ∀ {parts : List (List Char)}, (∀ part ∈ parts, ∀ c ∈ part, p c) →
      ∀ c ∈ [sep].intercalate parts, p c
  | [], _, c, hc => absurd hc (by simp)
  | [part], h, c, hc => h part List.mem_cons_self c (by simpa using hc)
  | part :: part' :: parts, h, c, hc => by
    rw [List.intercalate_cons_cons] at hc
    rcases List.mem_append.1 hc with hc | hc
    · rcases List.mem_append.1 hc with hc | hc
      · exact h part List.mem_cons_self c hc
      · exact List.mem_singleton.1 hc ▸ hsep
    · have hrest : ∀ c ∈ [sep].intercalate (part' :: parts), p c :=
        forall_mem_intercalate hsep fun q hq => h q (List.mem_cons_of_mem part hq)
      exact hrest c hc

/-- Texts with a character before each of them are the texts joined with it, and one more. -/
theorem flatMap_cons : ∀ {parts : List (List Char)}, parts ≠ [] →
    parts.flatMap (sep :: ·) = sep :: [sep].intercalate parts
  | [], hne => absurd rfl hne
  | [part], _ => by simp
  | part :: part' :: parts, _ => by
    have hrest : (part' :: parts).flatMap (sep :: ·) = sep :: [sep].intercalate (part' :: parts) :=
      flatMap_cons (List.cons_ne_nil _ _)
    rw [List.flatMap_cons, hrest, List.intercalate_cons_cons]
    simp

end Courier.Text
