import Courier.Dict
import Mathlib.Data.List.Sort

/-!
# Dictionaries and sets are determined by their content

Both are lists in strictly ascending order, so that the content settles the list
(`KeySet.ext_mem`, `Entries.ext_get?`), and building one anew from a list in order gives
that list back (`KeySet.ofList_toList`, `Dict.foldl_insert_entries`). Hence insertions of
two keys commute (`Entries.insert_comm`), and the pairs of a dictionary give it back in any order
(`Dict.ofList_of_perm`).
-/

namespace Courier

/-! ## Sets -/

namespace KeySet

theorem not_mem_empty (k : String) : k ∉ (∅ : KeySet) :=
  List.not_mem_nil

theorem mem_insert {k k' : String} {s : KeySet} : k' ∈ s.insert k ↔ k' = k ∨ k' ∈ s :=
  Keys.mem_insert

/-- Sets with the same members are equal. -/
theorem ext_mem {s t : KeySet} (h : ∀ k, k ∈ s ↔ k ∈ t) : s = t :=
  KeySet.ext (List.Pairwise.eq_of_mem_iff s.ordered t.ordered h)

/-- The set of the members of a set. -/
theorem ofList_toList (s : KeySet) : KeySet.ofList s.toList = s :=
  ext_mem fun _ => mem_ofList

/-- Lists with the same texts have one set. -/
theorem ofList_congr {ks ks' : List String} (h : ∀ k, k ∈ ks ↔ k ∈ ks') :
    KeySet.ofList ks = KeySet.ofList ks' :=
  ext_mem fun k => by rw [mem_ofList, mem_ofList, h]

theorem nodup_toList (s : KeySet) : s.toList.Nodup :=
  s.ordered.imp fun h => String.ne_of_lt h

/-- The set of distinct texts has them all, each once. -/
theorem ofList_perm {ks : List String} (h : ks.Nodup) : (KeySet.ofList ks).toList.Perm ks :=
  (List.perm_ext_iff_of_nodup (nodup_toList _) h).2 fun _ => mem_ofList

end KeySet

/-! ## Dictionaries -/

namespace Entries

variable {α : Type _} {k : String} {v : α} {es : List (String × α)}

theorem mem_of_get? (h : get? k es = some v) : (k, v) ∈ es := by
  induction es with
  | nil => simp [get?] at h
  | cons e rest ih =>
    obtain ⟨k', v'⟩ := e
    rw [get?] at h
    split at h
    · next hk =>
      obtain rfl := Option.some.inj h
      rw [hk]
      exact List.mem_cons_self
    · exact List.mem_cons_of_mem _ (ih h)

theorem get?_eq_none_iff : get? k es = none ↔ k ∉ es.map Prod.fst := by
  induction es with
  | nil => simp [get?]
  | cons e rest ih =>
    obtain ⟨k', v'⟩ := e
    rw [get?]
    split
    · next hk => simp [hk]
    · next hk => simp [ih, Ne.symm hk]

/-- A key that comes after the first one of an ordered list is another one. -/
theorem get?_of_ordered_cons {e : String × α} (h : Ordered (e :: es)) (hv : get? k es = some v) :
    e.1 ≠ k := by
  rintro rfl
  have hlt := (List.pairwise_cons.1 h).1 _ (mem_of_get? hv)
  exact String.lt_irrefl _ hlt

theorem get?_eq_some_iff (h : Ordered es) : get? k es = some v ↔ (k, v) ∈ es := by
  refine ⟨mem_of_get?, fun hm => ?_⟩
  induction es with
  | nil => simp at hm
  | cons e rest ih =>
    obtain ⟨hlt, hrest⟩ := List.pairwise_cons.1 h
    rw [get?]
    rcases List.mem_cons.1 hm with rfl | hm
    · rw [if_pos rfl]
    · rw [if_neg fun hk => String.ne_of_lt (hlt _ hm) hk]
      exact ih hrest hm

/-- Ordered lists in which every key leads to the same are equal. -/
theorem ext_get? {es' : List (String × α)} (h : Ordered es) (h' : Ordered es')
    (hget : ∀ k, get? k es = get? k es') : es = es' := by
  refine List.Pairwise.eq_of_mem_iff h h' fun e => ?_
  rw [← get?_eq_some_iff h, ← get?_eq_some_iff h', hget]

/-- The keys after an insertion are the keys before it and the one inserted. -/
theorem mem_keys_insert {k' : String} :
    k' ∈ (insert k v es).map Prod.fst ↔ k' = k ∨ k' ∈ es.map Prod.fst := by
  have hnone := get?_insert k k' v es
  rw [← not_iff_not, not_or, ← get?_eq_none_iff, ← get?_eq_none_iff, hnone]
  split
  · next hk => simp [hk]
  · next hk => simp [Ne.symm hk]

/-- Insertions of two keys commute. -/
theorem insert_comm {k' : String} {v' : α} (h : Ordered es) (hk : k ≠ k') :
    insert k v (insert k' v' es) = insert k' v' (insert k v es) := by
  refine ext_get? (ordered_insert k v (ordered_insert k' v' h))
    (ordered_insert k' v' (ordered_insert k v h)) fun key => ?_
  simp only [get?_insert]
  split
  · next h₁ =>
    split
    · next h₂ => exact absurd (h₁.trans h₂.symm) hk
    · rfl
  · rfl

/-- A key past all others goes to the end. -/
theorem insert_of_lt {k : String} (v : α) :
    ∀ {es : List (String × α)}, (∀ e ∈ es, e.1 < k) → insert k v es = es ++ [(k, v)]
  | [], _ => rfl
  | (k', v') :: rest, h => by
    have hk : k' < k := h (k', v') List.mem_cons_self
    rw [insert, if_neg fun h' => String.lt_asymm hk h', if_neg (String.ne_of_lt hk),
      insert_of_lt v fun e he => h e (List.mem_cons_of_mem _ he), List.cons_append]

/-- The pair is the last one with its key. -/
def Last (es : List (String × α)) (k : String) (v : α) : Prop :=
  ∃ before after, es = before ++ (k, v) :: after ∧ k ∉ after.map Prod.fst

theorem not_last_nil : ¬Last [] k v := by
  rintro ⟨before, after, h, -⟩
  simp at h

/-- The last pair with a key is one of the rest, or the first if the rest does not have the
key. -/
theorem last_cons_iff {k' : String} {v' : α} :
    Last ((k', v') :: es) k v ↔ Last es k v ∨ (k' = k ∧ v' = v ∧ k ∉ es.map Prod.fst) := by
  constructor
  · rintro ⟨before, after, h, hk⟩
    rcases before with _ | ⟨e, before⟩
    · simp only [List.nil_append, List.cons.injEq, Prod.mk.injEq] at h
      obtain ⟨⟨rfl, rfl⟩, rfl⟩ := h
      exact Or.inr ⟨rfl, rfl, hk⟩
    · obtain ⟨-, hes⟩ := List.cons.inj h
      exact Or.inl ⟨before, after, hes, hk⟩
  · rintro (⟨before, after, rfl, hk⟩ | ⟨rfl, rfl, hk⟩)
    · exact ⟨(k', v') :: before, after, rfl, hk⟩
    · exact ⟨[], es, rfl, hk⟩

theorem last_append_iff {es' : List (String × α)} :
    Last (es ++ es') k v ↔ Last es' k v ∨ (Last es k v ∧ k ∉ es'.map Prod.fst) := by
  induction es with
  | nil => simp [not_last_nil]
  | cons e es ih =>
    obtain ⟨k', v'⟩ := e
    rw [List.cons_append, last_cons_iff, ih, last_cons_iff]
    simp only [List.map_append, List.mem_append, not_or]
    tauto

theorem Last.mem (h : Last es k v) : (k, v) ∈ es := by
  obtain ⟨before, after, rfl, -⟩ := h
  simp

/-- If no two pairs have one key, each is the last one with its key. -/
theorem last_iff_mem (h : (es.map Prod.fst).Nodup) : Last es k v ↔ (k, v) ∈ es := by
  refine ⟨Last.mem, fun hm => ?_⟩
  obtain ⟨before, after, rfl⟩ := List.append_of_mem hm
  rw [List.map_append, List.map_cons, List.nodup_append] at h
  exact ⟨before, after, rfl, (List.nodup_cons.1 h.2.1).1⟩

end Entries

namespace Dict

variable {α : Type _}

/-- Dictionaries in which every key leads to the same are equal. -/
theorem ext_get? {d e : Dict α} (h : ∀ k v, d.get? k = some v ↔ e.get? k = some v) : d = e :=
  Dict.ext (Entries.ext_get? d.ordered e.ordered fun k => Option.ext fun v => h k v)

theorem get?_empty (k : String) : (∅ : Dict α).get? k = none :=
  rfl

/-- After insertions a key leads to its last value among them, or else to what it led to before. -/
theorem get?_foldl_insert {k : String} {v : α} (es : List (String × α)) (d : Dict α) :
    (es.foldl (fun acc e => acc.insert e.1 e.2) d).get? k = some v ↔
      Entries.Last es k v ∨ (k ∉ es.map Prod.fst ∧ d.get? k = some v) := by
  induction es generalizing d with
  | nil => simp [Entries.not_last_nil]
  | cons e rest ih =>
    obtain ⟨k', v'⟩ := e
    rw [List.foldl_cons, ih, Entries.last_cons_iff, get?_insert]
    by_cases hk : k' = k
    · simp [hk, and_comm]
    · simp [hk, Ne.symm hk]

/-- Insertions one after the other give the dictionary of the pairs. -/
theorem foldl_insert_empty (es : List (String × α)) :
    es.foldl (fun acc e => acc.insert e.1 e.2) ∅ = ofList es := by
  have hfold : ∀ (es : List (String × α)) (acc : Dict α),
      (es.foldl (fun acc e => acc.insert e.1 e.2) acc).entries =
        es.foldl (fun acc e => Entries.insert e.1 e.2 acc) acc.entries := by
    intro es
    induction es with
    | nil => intro acc; rfl
    | cons e rest ih => intro acc; exact ih (acc.insert e.1 e.2)
  exact Dict.ext (hfold es ∅)

/-- In the dictionary of a list a key leads to its last value there. -/
theorem get?_ofList {es : List (String × α)} {k : String} {v : α} :
    (ofList es).get? k = some v ↔ Entries.Last es k v := by
  simp [← foldl_insert_empty, get?_foldl_insert, get?_empty]

/-- The pairs of a dictionary, in any order, give the dictionary. -/
theorem ofList_of_perm {d : Dict α} {es : List (String × α)} (h : es.Perm d.entries) :
    ofList es = d := by
  have hkeys : (es.map Prod.fst).Nodup :=
    (h.map Prod.fst).nodup_iff.2 (List.pairwise_map.2 (d.ordered.imp String.ne_of_lt))
  refine ext_get? fun k v => ?_
  calc (ofList es).get? k = some v
      ↔ Entries.Last es k v := get?_ofList
    _ ↔ (k, v) ∈ es := Entries.last_iff_mem hkeys
    _ ↔ (k, v) ∈ d.entries := h.mem_iff
    _ ↔ d.get? k = some v := (Entries.get?_eq_some_iff d.ordered).symm

/-- Inserting the pairs of a dictionary one after the other gives the dictionary. -/
theorem foldl_insert_entries (d : Dict α) :
    d.entries.foldl (fun acc e => acc.insert e.1 e.2) ∅ = d :=
  (foldl_insert_empty d.entries).trans (ofList_of_perm (List.Perm.refl d.entries))

end Dict

end Courier
