import Courier.Proofs.Yaml.Conversion
import Mathlib.Data.List.Perm.Basic
import Mathlib.Logic.Relation

/-!
# The order of entries

A value is reordered by permuting the entries of its mappings, at any depth (`Reorders`).
The keys of a mapping are distinct values, but as keys of an object they are texts, and two
of them may become one : then the last entry stays, and the order counts. In a value where
that does not happen (`KeysApart`) insertions of entries commute (`entriesToJson?_perm`), and
no reordering shows in JSON (`Reorders.toJson?_eq`).
-/

namespace Courier.Yaml.Value

/-- A mapping somewhere in the value has its entries permuted. -/
inductive Permutes : Value → Value → Prop
  | entries {es fs : List (Value × Value)} (h : es.Perm fs) : Permutes (.map es) (.map fs)
  | item (front back : List Value) {v w : Value} (h : Permutes v w) :
    Permutes (.seq (front ++ v :: back)) (.seq (front ++ w :: back))
  | key (front back : List (Value × Value)) (v : Value) {k l : Value} (h : Permutes k l) :
    Permutes (.map (front ++ (k, v) :: back)) (.map (front ++ (l, v) :: back))
  | value (front back : List (Value × Value)) (k : Value) {v w : Value} (h : Permutes v w) :
    Permutes (.map (front ++ (k, v) :: back)) (.map (front ++ (k, w) :: back))
  | tagged (tag : String) {v w : Value} (h : Permutes v w) :
    Permutes (.tagged tag v) (.tagged tag w)

/-- The values differ by the order of entries only. -/
abbrev Reorders : Value → Value → Prop :=
  Relation.ReflTransGen Permutes

/-- The keys of two entries do not become one. -/
def Apart (e f : Value × Value) : Prop :=
  ∀ key, e.1.jsonKey? = some key → f.1.jsonKey? ≠ some key

mutual
/-- Whether no two keys of a mapping in the value become one, at any depth. -/
def KeysApart : Value → Prop
  | .seq items => KeysApartItems items
  | .map entries => entries.Pairwise Apart ∧ KeysApartEntries entries
  | .tagged _ v => v.KeysApart
  | _ => True

/-- `KeysApart` for each value of a list. -/
def KeysApartItems : List Value → Prop
  | [] => True
  | v :: rest => v.KeysApart ∧ KeysApartItems rest

/-- `KeysApart` for each value of a list of entries. -/
def KeysApartEntries : List (Value × Value) → Prop
  | [] => True
  | (_, v) :: rest => v.KeysApart ∧ KeysApartEntries rest
end

variable {v w : Value} {es fs : List (Value × Value)} {vs : List Value}

theorem keysApart_seq_iff : (seq vs).KeysApart ↔ ∀ v ∈ vs, v.KeysApart := by
  show KeysApartItems vs ↔ _
  induction vs with
  | nil => simp [KeysApartItems]
  | cons v rest ih => simp [KeysApartItems, ih]

theorem keysApart_map_iff :
    (map es).KeysApart ↔ es.Pairwise Apart ∧ ∀ e ∈ es, e.2.KeysApart := by
  have hentries : KeysApartEntries es ↔ ∀ e ∈ es, e.2.KeysApart := by
    induction es with
    | nil => simp [KeysApartEntries]
    | cons e rest ih => simp [KeysApartEntries, ih]
  rw [← hentries]
  exact Iff.rfl

theorem Apart.symm {e f : Value × Value} (h : Apart e f) : Apart f e :=
  fun key hf he => h key he hf

/-! ## One mapping -/

theorem entriesToJson?_cons {done : List (String × Json.Value)} {e : Value × Value} :
    entriesToJson? done (e :: es) =
      e.1.jsonKey?.bind fun key => e.2.toJson?.bind fun j =>
        entriesToJson? (Entries.insert key j done) es := by
  obtain ⟨k, v⟩ := e
  rw [entriesToJson?]
  cases k.jsonKey? with
  | none => rfl
  | some key => cases v.toJson? <;> rfl

/-- Entries whose keys stay apart make the same object in any order. -/
theorem entriesToJson?_perm (h : es.Perm fs) (ha : es.Pairwise Apart)
    {done : List (String × Json.Value)} (hd : Entries.Ordered done) :
    entriesToJson? done es = entriesToJson? done fs := by
  induction h generalizing done with
  | nil => rfl
  | cons e _ ih =>
    simp only [entriesToJson?_cons]
    refine Option.bind_congr fun key _ => Option.bind_congr fun j _ => ?_
    exact ih (List.pairwise_cons.1 ha).2 (Entries.ordered_insert key j hd)
  | swap e f rest =>
    have hef : Apart f e := (List.pairwise_cons.1 ha).1 e List.mem_cons_self
    simp only [entriesToJson?_cons]
    cases he : e.1.jsonKey? with
    | none => cases f.1.jsonKey? <;> simp
    | some key =>
      cases hf : f.1.jsonKey? with
      | none => simp
      | some key' =>
        have hne : key ≠ key' := fun heq => hef key' hf (heq ▸ he)
        cases e.2.toJson? with
        | none => cases f.2.toJson? <;> simp
        | some j =>
          cases f.2.toJson? with
          | none => simp
          | some j' => simp [Entries.insert_comm hd hne]
  | trans h₁ _ ih₁ ih₂ =>
    rw [ih₁ ha hd, ih₂ ((h₁.pairwise_iff Apart.symm).1 ha) hd]

/-! ## One place in a value -/

theorem itemsToJson?_congr (h : v.toJson? = w.toJson?) (front back : List Value) :
    itemsToJson? (front ++ v :: back) = itemsToJson? (front ++ w :: back) := by
  induction front with
  | nil => simp only [List.nil_append, itemsToJson?, h]
  | cons u front ih => simp only [List.cons_append, itemsToJson?, ih]

theorem entriesToJson?_congr {k l : Value} (hk : k.jsonKey? = l.jsonKey?)
    (hv : v.toJson? = w.toJson?) (front back : List (Value × Value)) :
    ∀ done, entriesToJson? done (front ++ (k, v) :: back) =
      entriesToJson? done (front ++ (l, w) :: back) := by
  induction front with
  | nil =>
    intro done
    simp only [List.nil_append, entriesToJson?_cons, hk, hv]
  | cons u front ih =>
    intro done
    simp only [List.cons_append, entriesToJson?_cons, ih]

/-- What is permuted is no single value, and becomes no key. -/
theorem Permutes.jsonKey?_eq (h : Permutes v w) : v.jsonKey? = w.jsonKey? := by
  cases h <;> rfl

theorem pairwise_apart_iff : es.Pairwise Apart ↔ (es.map fun e => e.1.jsonKey?).Pairwise
    fun a b => ∀ key, a = some key → b ≠ some key := by
  rw [List.pairwise_map]
  exact Iff.rfl

/-- Only the keys in JSON count for whether entries are apart. -/
theorem pairwise_apart_congr {k l : Value} (hk : k.jsonKey? = l.jsonKey?)
    {front back : List (Value × Value)} (h : (front ++ (k, v) :: back).Pairwise Apart) :
    (front ++ (l, w) :: back).Pairwise Apart := by
  have hmap : (front ++ (k, v) :: back).map (fun e => e.1.jsonKey?) =
      (front ++ (l, w) :: back).map (fun e => e.1.jsonKey?) := by
    simp [hk]
  rw [pairwise_apart_iff] at h ⊢
  rwa [← hmap]

theorem Permutes.keysApart (h : Permutes v w) (hv : v.KeysApart) : w.KeysApart := by
  induction h with
  | entries h =>
    obtain ⟨ha, he⟩ := keysApart_map_iff.1 hv
    exact keysApart_map_iff.2 ⟨(h.pairwise_iff Apart.symm).1 ha, fun e hm => he e (h.mem_iff.2 hm)⟩
  | item front back _ ih =>
    rw [keysApart_seq_iff] at hv ⊢
    simp only [List.forall_mem_append, List.forall_mem_cons] at hv ⊢
    exact ⟨hv.1, ih hv.2.1, hv.2.2⟩
  | key front back v h _ =>
    rw [keysApart_map_iff] at hv ⊢
    refine ⟨pairwise_apart_congr h.jsonKey?_eq hv.1, ?_⟩
    have hall := hv.2
    simp only [List.forall_mem_append, List.forall_mem_cons] at hall ⊢
    exact hall
  | value front back k _ ih =>
    rw [keysApart_map_iff] at hv ⊢
    refine ⟨pairwise_apart_congr rfl hv.1, ?_⟩
    have hall := hv.2
    simp only [List.forall_mem_append, List.forall_mem_cons] at hall ⊢
    exact ⟨hall.1, ih hall.2.1, hall.2.2⟩
  | tagged tag _ ih => exact ih hv

/-- One permutation does not show in JSON. -/
theorem Permutes.toJson?_eq (h : Permutes v w) (hv : v.KeysApart) : v.toJson? = w.toJson? := by
  induction h with
  | entries h =>
    have hnil : Entries.Ordered ([] : List (String × Json.Value)) := List.Pairwise.nil
    rw [toJson?, toJson?, entriesToJson?_perm h (keysApart_map_iff.1 hv).1 hnil]
  | item front back _ ih =>
    have hitem := ih (keysApart_seq_iff.1 hv _ (by simp))
    rw [toJson?, toJson?, itemsToJson?_congr hitem]
  | key front back v h _ =>
    have hentry := entriesToJson?_congr (v := v) h.jsonKey?_eq rfl front back
    rw [toJson?, toJson?, hentry]
  | value front back k _ ih =>
    have hvalue := ih ((keysApart_map_iff.1 hv).2 (k, _) (by simp))
    have hentry := entriesToJson?_congr (k := k) rfl hvalue front back
    rw [toJson?, toJson?, hentry]
  | tagged tag _ ih => rw [toJson?, toJson?, ih hv]

/-- No reordering of a value whose keys stay apart shows in JSON. -/
theorem Reorders.toJson?_eq (h : Reorders v w) (hv : v.KeysApart) : v.toJson? = w.toJson? := by
  induction h using Relation.ReflTransGen.head_induction_on with
  | refl => rfl
  | head hstep _ ih => rw [hstep.toJson?_eq hv, ih (hstep.keysApart hv)]

end Courier.Yaml.Value
