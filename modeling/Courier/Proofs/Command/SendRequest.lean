import Courier.Command.SendRequest
import Courier.Proofs.Text.Blank

/-!
# Tags on the command line

A tag is malformed if there is no `=` in it, or nothing but blanks before the first one
(`Malformed`), and those are the tags that give no key (`parseTag?_eq_none_iff`). Every other tag
gives a value to the key in front of its first `=` (`Gives`, `parseTag?_eq_some_iff`).
-/

namespace Courier

/-- A tag without a key. -/
inductive Malformed (tag : String) : Prop
  | unsigned (h : '=' ∉ tag.toList)
  | unnamed (before value : List Char) (h : tag.toList = before ++ '=' :: value)
    (hbefore : ∀ c ∈ before, Text.isBlank c = true)

/-- The tag gives the key a value : the key is the core of what stands before the first `=`, and the
value is all that stands behind it. -/
def Gives (tag key value : String) : Prop :=
  ∃ front, tag.toList = front ++ '=' :: value.toList ∧ '=' ∉ front ∧ Text.Trims front key.toList ∧
    key ≠ ""

variable {tag key value : String}

/-- What is read of a tag with its first `=` behind `front`. -/
theorem parseTag?_of_split {front back : List Char} (h : tag.toList = front ++ '=' :: back)
    (hfront : '=' ∉ front) : parseTag? tag = if Text.trimList front = [] then none
      else some (String.ofList (Text.trimList front), String.ofList back) := by
  have hne : ∀ c ∈ front, (c != '=') = true := by
    intro c hc
    rw [bne_iff_ne]
    rintro rfl
    exact hfront hc
  have htake : tag.toList.takeWhile (· != '=') = front := by
    rw [h, List.takeWhile_append_of_pos hne, List.takeWhile_cons_of_neg (by simp), List.append_nil]
  have hdrop : tag.toList.dropWhile (· != '=') = '=' :: back := by
    rw [h, List.dropWhile_append_of_pos hne, List.dropWhile_cons_of_neg (by simp)]
  unfold parseTag?
  simp only [htake, hdrop, List.isEmpty_iff]

theorem parseTag?_of_notMem (h : '=' ∉ tag.toList) : parseTag? tag = none := by
  have hdrop : tag.toList.dropWhile (· != '=') = [] := by
    refine List.dropWhile_eq_nil_iff.2 fun c hc => ?_
    rw [bne_iff_ne]
    rintro rfl
    exact h hc
  unfold parseTag?
  simp only [hdrop]

/-- The tags without a key are those that are malformed. -/
theorem parseTag?_eq_none_iff : parseTag? tag = none ↔ Malformed tag := by
  constructor
  · intro hnone
    by_cases hsign : '=' ∈ tag.toList
    · obtain ⟨front, back, h, hfront⟩ := List.eq_append_cons_of_mem hsign
      rw [parseTag?_of_split h hfront, ite_eq_left_iff] at hnone
      have hblank : Text.trimList front = [] := by simpa using hnone
      exact .unnamed front back h (Text.trimList_eq_nil_iff.1 hblank)
    · exact .unsigned hsign
  · rintro (hsign | ⟨before, value, h, hbefore⟩)
    · exact parseTag?_of_notMem hsign
    · have hfront : '=' ∉ before := fun hmem => by cases hbefore _ hmem
      rw [parseTag?_of_split h hfront, if_pos (Text.trimList_eq_nil_iff.2 hbefore)]

/-- The tags with a key give it its value. -/
theorem parseTag?_eq_some_iff : parseTag? tag = some (key, value) ↔ Gives tag key value := by
  constructor
  · intro h
    by_cases hsign : '=' ∈ tag.toList
    · obtain ⟨front, back, hsplit, hfront⟩ := List.eq_append_cons_of_mem hsign
      rw [parseTag?_of_split hsplit hfront] at h
      obtain ⟨hne, hentry⟩ := Option.ite_none_left_eq_some.1 h
      obtain ⟨rfl, rfl⟩ := Prod.mk.inj (Option.some.inj hentry)
      refine ⟨front, by rw [String.toList_ofList, hsplit], hfront, ?_, ?_⟩
      · rw [String.toList_ofList, ← Text.trimList_eq_iff]
      · rwa [Ne, ← String.toList_inj, String.toList_ofList]
    · rw [parseTag?_of_notMem hsign] at h
      cases h
  · rintro ⟨front, hsplit, hfront, htrims, hkey⟩
    have hne : key.toList ≠ [] := fun h => hkey (String.toList_inj.1 h)
    rw [parseTag?_of_split hsplit hfront, Text.trimList_eq_iff.2 htrims, if_neg hne,
      String.ofList_toList, String.ofList_toList]

/-- A tag gives a key a value unless it is malformed. -/
theorem exists_gives_iff : (∃ key value, Gives tag key value) ↔ ¬Malformed tag := by
  rw [← parseTag?_eq_none_iff, ← Ne, Option.ne_none_iff_exists']
  simp only [Prod.exists, parseTag?_eq_some_iff]

end Courier
