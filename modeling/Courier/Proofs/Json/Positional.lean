import Courier.Proofs.Json.Accept
import Courier.Proofs.Json.Read
import Mathlib.Data.List.DropRight

/-!
# Records in positional and named form

The values of the fields in their order, in an array, and the same values under the names of the
fields, in an object, are two forms of a record. `Positional` says that they agree : an array is
read as the object with its items, if there are no more items than fields and one at least for each
field up to the last that no array may leave out, and other arrays are refused. The number of these
fields is that of all fields without those at the end that may be left out
(`forall_mem_drop_iff`), and every record has the two forms (`Layout.positional`).
-/

namespace Courier.Json

variable {α : Type} {d : Decoder α} {ts : List Tree} {cs cs' : List Char}

/-- What is behind the first `n` has a property if no more than `n` are left without those at the
end that have it. -/
theorem forall_mem_drop_iff {p : α → Bool} {xs : List α} {n : Nat} :
    (∀ x ∈ xs.drop n, p x = true) ↔ (xs.rdropWhile p).length ≤ n := by
  induction xs using List.reverseRecOn with
  | nil => simp
  | append_singleton xs x ih =>
    by_cases hx : p x = true
    · rw [List.rdropWhile_concat_pos p xs x hx, ← ih, List.drop_append, List.forall_mem_append]
      refine and_iff_left fun y hy => ?_
      rw [List.mem_singleton.1 (List.mem_of_mem_drop hy), hx]
    · rw [List.rdropWhile_concat_neg p xs x hx]
      constructor
      · intro h
        by_contra hn
        have hlast : x ∈ (xs ++ [x]).drop n := by
          rw [List.length_append, List.length_singleton] at hn
          rw [List.drop_append_of_le_length (by omega)]
          simp
        exact hx (h x hlast)
      · intro hn y hy
        rw [List.drop_eq_nil_iff.2 hn] at hy
        cases hy

/-- The two forms of what a decoder reads agree : the values of fields with the labels in an array,
and under the labels in an object. No array is read that has fewer items than `least`. -/
structure Positional (d : Decoder α) (labels : List String) (least : Nat) : Prop where
  /-- JSON values have both forms. -/
  texts : ∀ {ts : List Tree}, (∀ t ∈ ts, ∃ cs, Spells t cs) →
    (∃ cs, Spells (.array ts) cs) ∧ ∃ cs, Spells (.object (labels.zip ts)) cs
  agrees : ∀ {ts : List Tree} {cs cs' : List Char}, Spells (.array ts) cs →
    Spells (.object (labels.zip ts)) cs' → ∀ x, decode d (Utf8.encode cs) = .ok x ↔
      least ≤ ts.length ∧ ts.length ≤ labels.length ∧ decode d (Utf8.encode cs') = .ok x
  refuses : ∀ {ts : List Tree} {cs : List Char}, Spells (.array ts) cs →
    ts.length < least ∨ labels.length < ts.length → ∃ f, decode d (Utf8.encode cs) = .error f

/-- Both forms agree if they do as trees. -/
theorem Positional.of_trees {labels : List String} {least : Nat}
    (h : ∀ {ts : List Tree} {x : α}, d (.array ts) = .ok x ↔
      least ≤ ts.length ∧ ts.length ≤ labels.length ∧ d (.object (labels.zip ts)) = .ok x) :
    Positional d labels least where
  texts hts := ⟨exists_spells_array hts,
    exists_spells_object fun m hm => hts m.2 (List.of_mem_zip hm).2⟩
  agrees hcs hcs' x := by rw [decode_of_spells hcs, decode_of_spells hcs', h]
  refuses := by
    intro ts cs hcs hlength
    rw [decode_of_spells hcs]
    cases hd : d (.array ts) with
    | error f => exact ⟨f, rfl⟩
    | ok x =>
      obtain ⟨hleast, hmost, -⟩ := h.1 hd
      omega

/-- The number of the fields up to the last one that no array may leave out. -/
def Record.least {φ δ α : Type} (r : Record φ δ α) : Nat :=
  (r.fields.rdropWhile r.omissible).length

/-- A record has a positional and a named form, and they agree. -/
theorem Record.Layout.positional {φ δ α : Type} {r : Record φ δ α} (L : r.Layout)
    (hfields : r.fields.Nodup) : Positional r.decode (r.fields.map r.label) r.least := by
  refine .of_trees fun {ts x} => ?_
  rw [L.decode_array_iff hfields, forall_mem_drop_iff, List.length_map, Record.least]
  tauto

end Courier.Json
