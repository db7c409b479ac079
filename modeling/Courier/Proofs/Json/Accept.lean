import Courier.Json.Decode
import Courier.Proofs.Dict
import Courier.Proofs.Json.Build
import Courier.Proofs.Json.Layout

/-!
# What the decoders accept

Each decoder accepts the trees of one shape and gives what they hold : a string, a flag, `null`
or something else, an array of strings as the set of them (`keySet_eq_ok_iff`), an object as the
dictionary of the last values of its names (`dict_eq_ok_iff`), where the values that are not the
last ones have to be accepted all the same.
-/

namespace Courier.Json

/-- A decoder reads the tree of a text. -/
theorem decode_of_spells {α : Type} {t : Tree} {cs : List Char} (h : Spells t cs) (d : Decoder α) :
    decode d (Utf8.encode cs) = d t := by
  rw [decode, Document.ofBytes_of_spells h, Document.decode]
  cases d t <;> rfl

namespace Decode

open Entries (Last)

variable {α : Type} {d : Decoder α} {t : Tree}

theorem text_eq_ok_iff {s : String} : text t = .ok s ↔ t = .text s := by
  unfold text Tree.text
  split <;> simp_all

theorem flag_eq_ok_iff {b : Bool} : flag t = .ok b ↔ t = .bool b := by
  cases t <;> simp [flag]

/-- A decoder that refuses `null` : of `null` and what it accepts, each has its own value. -/
theorem optional_eq_ok_iff (hnull : ∀ v, d .null ≠ .ok v) {v? : Option α} :
    optional d t = .ok v? ↔ (t = .null ∧ v? = none) ∨ ∃ v, d t = .ok v ∧ v? = some v := by
  cases t with
  | null => simp [optional, hnull, eq_comm]
  | _ =>
    rw [optional]
    · cases d _ <;> simp [Except.map, eq_comm]
    · simp

theorem optional_text_eq_ok_iff {s? : Option String} : optional text t = .ok s? ↔
    (t = .null ∧ s? = none) ∨ ∃ s, t = .text s ∧ s? = some s := by
  have hnull : ∀ s, text .null ≠ .ok s := by simp [text]
  simp only [optional_eq_ok_iff hnull, text_eq_ok_iff]

theorem optional_flag_eq_ok_iff {b? : Option Bool} : optional flag t = .ok b? ↔
    (t = .null ∧ b? = none) ∨ ∃ b, t = .bool b ∧ b? = some b := by
  have hnull : ∀ b, flag .null ≠ .ok b := by simp [flag]
  simp only [optional_eq_ok_iff hnull, flag_eq_ok_iff]

theorem exists_optional_flag_iff : (∃ b?, optional flag t = .ok b?) ↔
    t = .null ∨ ∃ b, t = .bool b := by
  simp only [optional_flag_eq_ok_iff]
  constructor
  · rintro ⟨b?, ⟨hnull, -⟩ | ⟨b, hb, -⟩⟩
    · exact .inl hnull
    · exact .inr ⟨b, hb⟩
  · rintro (hnull | ⟨b, hb⟩)
    · exact ⟨none, .inl ⟨hnull, rfl⟩⟩
    · exact ⟨some b, .inr ⟨b, hb, rfl⟩⟩

/-! ## Arrays -/

theorem closed_of_items_eq_ok {closed : Bool} : ∀ {ts : List Tree} {acc vs : List α},
    items d closed acc ts = .ok vs → closed = true
  | [], acc, vs, h => by
    rw [items] at h
    split at h
    · assumption
    · cases h
  | t :: ts, acc, vs, h => by
    rw [items] at h
    split at h
    · cases h
    · exact closed_of_items_eq_ok h

theorem items_text_eq_ok_iff : ∀ {ts : List Tree} {acc ks : List String},
    items text true acc ts = .ok ks ↔ ∃ ks' : List String, ts = ks'.map .text ∧
      ks = acc.reverse ++ ks'
  | [], acc, ks => by simp [items, eq_comm]
  | t :: ts, acc, ks => by
    rw [items]
    cases ht : text t with
    | error f =>
      refine iff_of_false (by simp) ?_
      rintro ⟨_ | ⟨k, ks'⟩, hts, -⟩
      · cases hts
      · rw [text_eq_ok_iff.2 (List.cons.inj hts).1] at ht
        cases ht
    | ok k =>
      obtain rfl := text_eq_ok_iff.1 ht
      refine items_text_eq_ok_iff.trans ?_
      constructor
      · rintro ⟨ks', rfl, rfl⟩
        exact ⟨k :: ks', rfl, by simp⟩
      · rintro ⟨_ | ⟨k', ks'⟩, hts, rfl⟩
        · cases hts
        · obtain ⟨hk, rfl⟩ := List.cons.inj hts
          obtain rfl : k = k' := by simpa [Tree.text] using hk
          exact ⟨ks', rfl, by simp⟩

theorem list_text_eq_ok_iff {ks : List String} :
    list text t = .ok ks ↔ t = .array (ks.map .text) := by
  cases t with
  | arr ts closed =>
    rw [list]
    constructor
    · intro h
      obtain rfl := closed_of_items_eq_ok h
      obtain ⟨ks', rfl, rfl⟩ := items_text_eq_ok_iff.1 h
      rfl
    · intro h
      obtain ⟨rfl, rfl⟩ := Tree.arr.inj h
      exact items_text_eq_ok_iff.2 ⟨ks, rfl, rfl⟩
  | _ => simp [list, Tree.array]

theorem keySet_eq_ok_iff {s : KeySet} :
    keySet t = .ok s ↔ ∃ ks : List String, t = .array (ks.map .text) ∧ ∀ k, k ∈ s ↔ k ∈ ks := by
  have hset : ∀ ks : List String, KeySet.ofList ks = s ↔ ∀ k, k ∈ s ↔ k ∈ ks := fun ks => by
    constructor
    · rintro rfl k
      exact KeySet.mem_ofList
    · intro h
      exact KeySet.ext_mem fun k => by rw [KeySet.mem_ofList, h]
  have hmap : keySet t = .ok s ↔ ∃ ks, list text t = .ok ks ∧ KeySet.ofList ks = s := by
    rw [keySet]
    cases list text t <;> simp [Except.map]
  simp only [hmap, list_text_eq_ok_iff, hset]

theorem exists_keySet_iff :
    (∃ s, keySet t = .ok s) ↔ ∃ ks : List String, t = .array (ks.map .text) := by
  constructor
  · rintro ⟨s, hs⟩
    obtain ⟨ks, hks, -⟩ := keySet_eq_ok_iff.1 hs
    exact ⟨ks, hks⟩
  · rintro ⟨ks, rfl⟩
    exact ⟨KeySet.ofList ks, keySet_eq_ok_iff.2 ⟨ks, rfl, fun k => KeySet.mem_ofList⟩⟩

/-! ## Objects -/

/-- Every value of a name is accepted, and each key leads to what its last value holds, or else to
what it led to before. -/
theorem entries_eq_ok_iff : ∀ {es : List (String × Tree)} {acc D : Dict α},
    entries d true acc (es.map fun e => (some e.1, e.2)) = .ok D ↔
      (∀ e ∈ es, ∃ v, d e.2 = .ok v) ∧ ∀ k v, D.get? k = some v ↔
        (∃ u, Last es k u ∧ d u = .ok v) ∨ (k ∉ es.map Prod.fst ∧ acc.get? k = some v)
  | [], acc, D => by
    have hnil : ∀ k v, (∃ u, Last ([] : List (String × Tree)) k u ∧ d u = .ok v) ↔ False :=
      fun k v => iff_of_false (fun ⟨u, hu, _⟩ => Entries.not_last_nil hu) id
    simp only [List.map_nil, entries, if_true, Except.ok.injEq, hnil]
    constructor
    · rintro rfl
      simp
    · intro h
      exact Dict.ext_get? fun k v => by simpa using (h.2 k v).symm
  | (k, t) :: es, acc, D => by
    rw [List.map_cons, entries]
    cases ht : d t with
    | error f =>
      refine iff_of_false (by simp) fun h => ?_
      obtain ⟨v, hv⟩ := h.1 (k, t) List.mem_cons_self
      rw [ht] at hv
      cases hv
    | ok v =>
      refine entries_eq_ok_iff.trans (and_congr ?_ (forall₂_congr fun k' v' => ?_))
      · simp [ht]
      · refine iff_congr Iff.rfl ?_
        -- What the first value adds shows only if no later value of its key hides it.
        simp only [Entries.last_cons_iff, Dict.get?_insert, List.map_cons, List.mem_cons, not_or]
        by_cases hk : k = k'
        · subst hk
          by_cases hes : k ∈ es.map Prod.fst
          · simp [hes]
          · have hlast : ∀ u, ¬Last es k u := fun u hu => hes (List.mem_map.2 ⟨(k, u), hu.mem, rfl⟩)
            simp [hes, hlast, ht]
        · simp [hk, Ne.symm hk]

theorem of_entries_eq_ok {closed : Bool} : ∀ {ms : List (Option String × Tree)} {acc D : Dict α},
    entries d closed acc ms = .ok D →
      closed = true ∧ ∃ es : List (String × Tree), ms = es.map fun e => (some e.1, e.2)
  | [], acc, D, h => by
    rw [entries] at h
    split at h
    · exact ⟨‹_›, [], rfl⟩
    · cases h
  | (none, t) :: ms, acc, D, h => by cases h
  | (some k, t) :: ms, acc, D, h => by
    rw [entries] at h
    split at h
    · cases h
    · obtain ⟨hclosed, es, rfl⟩ := of_entries_eq_ok h
      exact ⟨hclosed, (k, t) :: es, rfl⟩

theorem dict_eq_ok_iff {D : Dict α} : dict d t = .ok D ↔
    ∃ es, t = .object es ∧ (∀ e ∈ es, ∃ v, d e.2 = .ok v) ∧
      ∀ k v, D.get? k = some v ↔ ∃ u, Last es k u ∧ d u = .ok v := by
  constructor
  · intro h
    cases t with
    | obj ms closed =>
      obtain ⟨rfl, es, rfl⟩ := of_entries_eq_ok h
      exact ⟨es, rfl, by simpa [Dict.get?_empty] using entries_eq_ok_iff.1 h⟩
    | _ => cases h
  · rintro ⟨es, rfl, hes⟩
    exact entries_eq_ok_iff.2 (by simpa [Dict.get?_empty] using hes)

theorem dict_text_eq_ok_iff {D : Dict String} : dict text t = .ok D ↔
    ∃ es, t = .object es ∧ (∀ e ∈ es, ∃ s, e.2 = .text s) ∧
      ∀ k s, D.get? k = some s ↔ Last es k (.text s) := by
  simp only [dict_eq_ok_iff, text_eq_ok_iff, exists_eq_right]

/-- An object is a dictionary if its values are all accepted. -/
theorem exists_dict_iff : (∃ D, dict d t = .ok D) ↔
    ∃ es, t = .object es ∧ ∀ e ∈ es, ∃ v, d e.2 = .ok v := by
  have hentries : ∀ (es : List (String × Tree)) (acc : Dict α), (∀ e ∈ es, ∃ v, d e.2 = .ok v) →
      ∃ D, entries d true acc (es.map fun e => (some e.1, e.2)) = .ok D := by
    intro es
    induction es with
    | nil => exact fun acc _ => ⟨acc, rfl⟩
    | cons e es ih =>
      intro acc h
      obtain ⟨⟨v, hv⟩, hes⟩ := List.forall_mem_cons.1 h
      obtain ⟨D, hD⟩ := ih (acc.insert e.1 v) hes
      exact ⟨D, by rw [List.map_cons, entries, hv]; exact hD⟩
  constructor
  · rintro ⟨D, hD⟩
    obtain ⟨es, rfl, hes, -⟩ := dict_eq_ok_iff.1 hD
    exact ⟨es, rfl, hes⟩
  · rintro ⟨es, rfl, hes⟩
    exact hentries es ∅ hes

end Decode

/-! ## Texts under a name -/

theorem says_text_iff {name : String} {ms : List (String × Tree)} {s : String} :
    Says name ms Decode.text none s ↔ under name ms = [.text s] := by
  simp [Says, Decode.text_eq_ok_iff]

theorem exists_says_text_iff {name : String} {ms : List (String × Tree)} :
    (∃ s, Says name ms Decode.text none s) ↔
      (under name ms).length ≤ 1 ∧ ∃ s, .text s ∈ under name ms := by
  simp only [exists_says_none_iff, Decode.text_eq_ok_iff]
  refine and_congr Iff.rfl ⟨?_, ?_⟩
  · rintro ⟨t, ht, s, rfl⟩
    exact ⟨s, ht⟩
  · rintro ⟨s, hs⟩
    exact ⟨.text s, hs, s, rfl⟩

end Courier.Json
