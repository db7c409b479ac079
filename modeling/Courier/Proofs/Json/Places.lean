import Courier.Proofs.Json.Edit
import Courier.Proofs.Json.Pointer

/-!
# Looking places up

In an ordered value a path leads to what stands there and to nothing else
(`descend?_eq_some_iff`), since a number is spelled by its digits only (`index?_eq_some_iff`), and
so does its pointer (`pointer?_ofPath`).

Keys are written in pointers and read back in one pass. Two passes come to the same if `~` is
written before `/` and `~1` is read before `~0` (`escape_eq_replace`, `unescape_eq_replace`).
-/

namespace Courier.Json

namespace Pointer

variable {cs : List Char}

/-! ## Passes over a key -/

/-- The text with another one in the place of each occurrence of a character. -/
def replaceChar (c : Char) (new cs : List Char) : List Char :=
  cs.flatMap fun d => if d = c then new else [d]

/-- The text with a character in the place of each `~` that the given character follows. -/
def replacePair (mark new : Char) : List Char → List Char
  | '~' :: c :: rest =>
    if c = mark then new :: replacePair mark new rest else '~' :: replacePair mark new (c :: rest)
  | c :: rest => c :: replacePair mark new rest
  | [] => []

/-- Keys are written in two passes, the first for `~`. -/
theorem escape_eq_replace (key : List Char) :
    escape key = replaceChar '/' ['~', '1'] (replaceChar '~' ['~', '0'] key) := by
  rw [replaceChar, replaceChar, List.flatMap_assoc, escape]
  refine List.flatMap_congr fun c _ => ?_
  unfold escapeChar
  split <;> simp

variable {mark new c : Char}

theorem replacePair_cons (hc : c ≠ '~') (rest : List Char) :
    replacePair mark new (c :: rest) = c :: replacePair mark new rest := by
  rw [replacePair]
  rintro d rest rfl
  exact absurd rfl hc

theorem replacePair_tilde (h : cs.head? ≠ some mark) :
    replacePair mark new ('~' :: cs) = '~' :: replacePair mark new cs := by
  cases cs with
  | nil => rfl
  | cons c rest =>
    rw [List.head?_cons, Ne, Option.some.injEq] at h
    rw [replacePair, if_neg h]

/-- A pass does not bring another character to the front than the one it puts in. -/
theorem head?_of_replacePair (hc : c ≠ new) (h : (replacePair mark new cs).head? = some c) :
    cs.head? = some c := by
  unfold replacePair at h
  split at h
  · split at h
    · exact absurd (Option.some.inj h).symm hc
    · exact h
  · exact h
  · exact h

/-- Keys are read in two passes, the first for `~1`. -/
theorem unescape_eq_replace : ∀ key : List Char,
    unescape key = replacePair '0' '~' (replacePair '1' '/' key)
  | [] => rfl
  | c :: rest => by
    by_cases hc : c = '~'
    · subst hc
      rcases rest with _ | ⟨d, rest⟩
      · rfl
      · by_cases hone : d = '1'
        · rw [hone, unescape, replacePair, if_pos rfl, replacePair_cons (by decide),
            unescape_eq_replace rest]
        · by_cases hzero : d = '0'
          · rw [hzero, unescape, replacePair, if_neg (by decide),
              replacePair_cons (show '0' ≠ '~' by decide), replacePair, if_pos rfl,
              unescape_eq_replace rest]
          · -- The `~` stands for itself, and the first pass leaves no `0` behind it.
            have hhead : (replacePair '1' '/' (d :: rest)).head? ≠ some '0' := fun h =>
              hzero (Option.some.inj (head?_of_replacePair (by decide) h))
            have hleft : unescape ('~' :: d :: rest) = '~' :: unescape (d :: rest) := by
              rw [unescape]
              · exact fun rest _ h => hone (List.cons.inj h).1
              · exact fun rest _ h => hzero (List.cons.inj h).1
            rw [hleft, replacePair, if_neg hone, replacePair_tilde hhead,
              unescape_eq_replace (d :: rest)]
    · rw [unescape_cons hc, replacePair_cons hc, replacePair_cons hc, unescape_eq_replace rest]

/-! ## Keys of items -/

/-- No number but zero is spelled with a zero in front. -/
theorem head?_toDigits_ne {n : Nat} (h : 0 < n) : (Nat.toDigits 10 n).head? ≠ some '0' := by
  induction n using Nat.strongRecOn with
  | ind n ih =>
    by_cases hn : n < 10
    · have hdigit : ∀ i : Fin 10, 0 < i.val → Nat.digitChar i ≠ '0' := by decide
      rw [Nat.toDigits_of_lt_base hn, List.head?_cons, Ne, Option.some.injEq]
      exact hdigit ⟨n, hn⟩ h
    · rw [Nat.toDigits_of_base_le (by decide) (by omega),
        List.head?_append_of_ne_nil _ Nat.toDigits_ne_nil]
      exact ih (n / 10) (by omega) (by omega)

/-- A number is read off its digits. -/
theorem index?_toDigits (n : Nat) : index? (Nat.toDigits 10 n) = some n := by
  have hsome : index? (Nat.toDigits 10 n) ≠ none := by
    have hdigits : (Nat.toDigits 10 n).all (·.isDigit) = true :=
      List.all_eq_true.2 fun c hc => Nat.isDigit_of_mem_toDigits (by decide) (by decide) hc
    have hzero : (Nat.toDigits 10 n).head? = some '0' → (Nat.toDigits 10 n).length = 1 := by
      intro h
      rcases Nat.eq_zero_or_pos n with rfl | hn
      · rfl
      · exact absurd h (head?_toDigits_ne hn)
    rw [index?, if_neg (by simpa [hdigits] using hzero)]
    exact Option.some_ne_none _
  obtain ⟨i, hi⟩ := Option.ne_none_iff_exists'.1 hsome
  rw [hi, Value.itemKey_injective (congrArg String.ofList (toDigits_of_index? hi))]

theorem index?_eq_some_iff {key : List Char} {i : Nat} :
    index? key = some i ↔ key = Nat.toDigits 10 i := by
  constructor
  · exact fun h => (toDigits_of_index? h).symm
  · rintro rfl
    exact index?_toDigits i

/-- Digits are written as they are. -/
theorem escape_toDigits (n : Nat) : escape (Nat.toDigits 10 n) = Nat.toDigits 10 n := by
  have hdigit : ∀ c ∈ Nat.toDigits 10 n, escapeChar c = [c] := by
    intro c hc
    have hc := Nat.isDigit_of_mem_toDigits (by decide) (by decide) hc
    unfold escapeChar
    split
    · next htilde => cases htilde ▸ hc
    · split
      · next hslash => cases hslash ▸ hc
      · rfl
  rw [escape, List.flatMap_congr hdigit, List.flatMap_singleton']

end Pointer

namespace Value

variable {v w : Value}

theorem occurs_of_descend? {p : List String} (h : v.descend? p = some w) : Occurs v p w := by
  induction p generalizing v with
  | nil =>
    obtain rfl := Option.some.inj h
    exact .root v
  | cons k p ih =>
    obtain ⟨u, hu, hw⟩ := Option.bind_eq_some_iff.1 h
    cases v with
    | obj members => exact .member (Entries.mem_of_get? hu) (ih hw)
    | arr items =>
      obtain ⟨i, hi, hu⟩ := Option.bind_eq_some_iff.1 hu
      have hk : k = String.ofList (Nat.toDigits 10 i) := by
        rw [← Pointer.index?_eq_some_iff.1 hi, String.ofList_toList]
      rw [hk]
      exact .item hu (ih hw)
    | _ => cases hu

/-- A path leads to what stands there. -/
theorem descend?_eq_some_iff (hv : v.Ordered) {p : List String} :
    v.descend? p = some w ↔ Occurs v p w := by
  refine ⟨occurs_of_descend?, fun h => ?_⟩
  induction h with
  | root v => rfl
  | item hu _ ih =>
    rw [descend?, child?, String.toList_ofList, Pointer.index?_toDigits, Option.bind_some, hu]
    exact ih (orderedItems_iff.1 hv _ (List.mem_of_getElem? hu))
  | member hu _ ih =>
    obtain ⟨hkeys, hvalues⟩ := ordered_obj_iff.1 hv
    rw [descend?, child?, (Entries.get?_eq_some_iff hkeys).2 hu]
    exact ih (hvalues _ hu)

theorem pointer?_ofPath (v : Value) (p : List String) :
    v.pointer? (String.ofList (Pointer.ofPath p)) = v.descend? p := by
  rw [pointer?, String.toList_ofList, Pointer.toPath?_ofPath, Option.bind_some]

end Value

end Courier.Json
