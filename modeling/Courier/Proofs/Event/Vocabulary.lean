import Courier.Event.Kind
import Courier.Proofs.Json.Accept
import Courier.Proofs.Json.Read

/-!
# Lawful vocabularies

In a lawful vocabulary the tokens and the members that are read are those of one table, and the
absent member is in no row of it (`Vocabulary.Lawful`). A text is then read exactly if it is a
token, only a null is read as the absent member, and reading undoes writing, both in columns
(`Lawful.ofColumn_eq_ok_iff`) and in JSON (`Lawful.decode_toValue`). Kinds and severities are
lawful.
-/

namespace Courier

open Json

/-- The fault of a JSON text that holds a token with something wrong. -/
def TokenError.fault : TokenError → Fault
  | .unknown noun token => .unknown noun token
  | .notUtf8 _ => .malformed

namespace Vocabulary

variable {α : Type} {voc : Vocabulary α} {v : α} {s : String} {t : Tree}

/-! ## Reading -/

theorem parse_eq_ok_iff : voc.parse s = .ok v ↔ voc.parse? s = some v := by
  unfold parse
  cases voc.parse? s <;> simp

theorem parse_eq_error (h : voc.parse? s = none) :
    voc.parse s = .error (.unknown voc.noun s) := by
  rw [parse, h]

/-- What is read of a token has the token. -/
theorem token?_of_parse? (h : voc.parse? s = some v) : voc.token? v = some s := by
  obtain ⟨⟨v', s'⟩, hfind, rfl⟩ := Option.map_eq_some_iff.1 h
  have hs : s' = s := by simpa using List.find?_some hfind
  obtain ⟨w, -, hw⟩ := List.mem_filterMap.1 (List.mem_of_find?_eq_some hfind)
  obtain ⟨s'', hs'', hpair⟩ := Option.map_eq_some_iff.1 hw
  obtain ⟨rfl, rfl⟩ := Prod.mk.inj hpair
  rw [hs'', hs]

theorem decode_eq_ok_iff : voc.decode t = .ok v ↔
    (t = .null ∧ v = voc.absent) ∨ ∃ s, t = .text s ∧ voc.parse? s = some v := by
  have hdecode : voc.decode t = .ok v ↔ ∃ s?, Decode.optional Decode.text t = .ok s? ∧
      ((s? = none ∧ v = voc.absent) ∨ ∃ s, s? = some s ∧ voc.parse? s = some v) := by
    rw [decode]
    rcases Decode.optional Decode.text t with f | _ | s
    · simp
    · simp [eq_comm]
    · cases hs : voc.parse? s <;> simp [hs]
  rw [hdecode]
  simp only [Decode.optional_text_eq_ok_iff]
  constructor
  · rintro ⟨_, ⟨rfl, rfl⟩ | ⟨s, rfl, rfl⟩, h⟩
    · exact .inl (by simpa using h)
    · exact .inr ⟨s, rfl, by simpa using h⟩
  · rintro (⟨rfl, rfl⟩ | ⟨s, rfl, h⟩)
    · exact ⟨none, .inl ⟨rfl, rfl⟩, .inl ⟨rfl, rfl⟩⟩
    · exact ⟨some s, .inr ⟨s, rfl, rfl⟩, .inr ⟨s, rfl, h⟩⟩

theorem exists_decode_iff : (∃ v, voc.decode t = .ok v) ↔
    t = .null ∨ ∃ s v, t = .text s ∧ voc.parse? s = some v := by
  simp only [decode_eq_ok_iff]
  constructor
  · rintro ⟨v, ⟨hnull, -⟩ | ⟨s, hs, hv⟩⟩
    · exact .inl hnull
    · exact .inr ⟨s, v, hs, hv⟩
  · rintro (hnull | ⟨s, v, hs, hv⟩)
    · exact ⟨voc.absent, .inl ⟨hnull, rfl⟩⟩
    · exact ⟨v, .inr ⟨s, hs, hv⟩⟩

theorem decode_text (s : String) :
    voc.decode (.text s) = (voc.parse s).mapError TokenError.fault := by
  have htext : Decode.optional Decode.text (.text s) = .ok (some s) := rfl
  simp only [decode, htext, parse]
  cases voc.parse? s <;> rfl

/-! ## Lawful vocabularies -/

variable (voc) in
/-- The rows of the table are the members with their tokens, the absent member is the one without,
and its spelling is no token. -/
structure Lawful : Prop where
  parse?_iff {s : String} {v : α} : voc.parse? s = some v ↔ voc.token? v = some s
  absent_iff (v : α) : voc.token? v = none ↔ v = voc.absent
  spelling (v : α) : voc.token? v ≠ some voc.absentSpelling

namespace Lawful

variable (h : voc.Lawful)
include h

theorem parse_ne_absent (s : String) : voc.parse s ≠ .ok voc.absent := by
  rw [ne_eq, parse_eq_ok_iff, h.parse?_iff, (h.absent_iff voc.absent).2 rfl]
  simp

theorem parse_of_token (hv : voc.token? v = some s) : voc.parse s = .ok v :=
  parse_eq_ok_iff.2 (h.parse?_iff.2 hv)

theorem parse_of_no_token (hs : ∀ v, voc.token? v ≠ some s) :
    voc.parse s = .error (.unknown voc.noun s) :=
  parse_eq_error (Option.eq_none_iff_forall_ne_some.2 fun v hv => hs v (h.parse?_iff.1 hv))

theorem ofColumn_eq_ok_iff {s? : Option String} :
    voc.ofColumn s? = .ok v ↔ voc.token? v = s? := by
  cases s? with
  | none => rw [ofColumn, Except.ok.injEq, h.absent_iff, eq_comm]
  | some s => rw [ofColumn, parse_eq_ok_iff, h.parse?_iff]

theorem exists_ofColumn_iff {s? : Option String} :
    (∃ v, voc.ofColumn s? = .ok v) ↔ ∀ s, s? = some s → ∃ v, voc.token? v = some s := by
  simp only [h.ofColumn_eq_ok_iff]
  cases s? with
  | none => simp [h.absent_iff]
  | some s => simp

theorem ofColumn_toColumn (v : α) : voc.ofColumn (voc.toColumn v) = .ok v :=
  h.ofColumn_eq_ok_iff.2 rfl

theorem ofColumn_absent_iff (s? : Option String) :
    voc.ofColumn s? = .ok voc.absent ↔ s? = none := by
  rw [h.ofColumn_eq_ok_iff, (h.absent_iff voc.absent).2 rfl, eq_comm]

theorem decode_absent_iff (t : Tree) : voc.decode t = .ok voc.absent ↔ t = .null := by
  rw [decode_eq_ok_iff]
  constructor
  · rintro (⟨ht, -⟩ | ⟨s, -, hs⟩)
    · exact ht
    · exact absurd (parse_eq_ok_iff.2 hs) (h.parse_ne_absent s)
  · rintro rfl
    exact .inl ⟨rfl, rfl⟩

theorem decode_toValue (v : α) : voc.decode (voc.toValue v).toTree = .ok v := by
  rw [toValue]
  cases hv : voc.token? v with
  | none =>
    rw [(h.absent_iff v).1 hv]
    rfl
  | some s =>
    refine (decode_text s).trans ?_
    rw [h.parse_of_token hv]
    rfl

end Lawful

end Vocabulary

/-! ## Kinds and severities -/

theorem kinds_parse?_iff {s : String} {k : Kind} : kinds.parse? s = some k ↔ k.token? = some s := by
  refine ⟨Vocabulary.token?_of_parse?, fun h => ?_⟩
  cases k <;> cases h <;> rfl

theorem severities_parse?_iff {s : String} {v : Severity} :
    severities.parse? s = some v ↔ v.token? = some s := by
  refine ⟨Vocabulary.token?_of_parse?, fun h => ?_⟩
  cases v <;> cases h <;> rfl

theorem kinds_lawful : kinds.Lawful where
  parse?_iff := kinds_parse?_iff
  absent_iff k := by cases k <;> simp [kinds, Kind.token?]
  spelling k := by cases k <;> simp [kinds, Kind.token?]

theorem severities_lawful : severities.Lawful where
  parse?_iff := severities_parse?_iff
  absent_iff s := by cases s <;> simp [severities, Severity.token?]
  spelling s := by cases s <;> simp [severities, Severity.token?]

end Courier
