import Courier.Proofs.Event.Vocabulary
import Courier.Proofs.Store.Row
import Courier.Proofs.Text.Valid

/-!
# Tokens along every route

A member of a closed enumeration is read from a text as such, from a stored text, from stored bytes,
from a column and from JSON. `Gives s r` says that the text `s` gives `r` along all of these, and
every text gives what it is parsed as (`gives_parse`), with any literal of it in JSON and any column
of texts.

In a lawful vocabulary a text is read exactly if it is a token, only nulls are read as the absent
member, and reading undoes writing, along every route alike (`Lawful.agrees`).
-/

namespace Courier

open Json (Document Spells)
open Store (CellReader ColumnType Row)

namespace Vocabulary

variable {α : Type} (voc : Vocabulary α)

/-- What a text gives along every route. -/
structure Gives (s : String) (r : Except TokenError α) : Prop where
  parse : voc.parse s = r
  column : voc.ofColumn (some s) = r
  bytes : voc.ofColumnBytes (some (Utf8.ofString s)) = r
  cell {row : Row} {name : String} {type : ColumnType} :
    Entries.get? name row = some ⟨type, .text (Utf8.ofString s)⟩ → type.holdsText = true →
      row.read (CellReader.member voc) name = r.mapError .token
  json {cs : List Char} : Spells (.text s) cs →
    Json.decode voc.decode (Utf8.encode cs) = r.mapError TokenError.fault

/-- The routes agree, and they read what is written : of texts the tokens, of nulls the absent
member, and nothing else. -/
structure Agrees : Prop where
  /-- The token of a member is read as the member along every route. -/
  token {s : String} {v : α} : voc.token? v = some s → voc.Gives s (.ok v)
  /-- A text that is no token is refused along every route, as the same unknown token. -/
  foreign {s : String} : (∀ v, voc.token? v ≠ some s) →
    voc.Gives s (.error (.unknown voc.noun s))
  /-- The absent member has no token, and it alone. -/
  absent (v : α) : voc.token? v = none ↔ v = voc.absent
  /-- The spelling of the absent member is no token. -/
  spelling : voc.Gives voc.absentSpelling (.error (.unknown voc.noun voc.absentSpelling))
  /-- Stored bytes that are no text are refused as such. -/
  bytes_notUtf8 (bytes : List UInt8) : (∀ s, bytes ≠ Utf8.ofString s) →
    voc.ofColumnBytes (some bytes) = .error (.notUtf8 voc.noun)
  column_absent (s? : Option String) : voc.ofColumn s? = .ok voc.absent ↔ s? = none
  bytes_absent (bytes? : Option (List UInt8)) :
    voc.ofColumnBytes bytes? = .ok voc.absent ↔ bytes? = none
  cell_absent (row : Row) (name : String) :
    row.read (CellReader.member voc) name = .ok voc.absent ↔
      ∃ type, Entries.get? name row = some ⟨type, .null⟩
  /-- Of all JSON values `null` is the one that is read as the absent member. -/
  json_absent {t : Json.Tree} {cs : List Char} : Spells t cs →
    (Json.decode voc.decode (Utf8.encode cs) = .ok voc.absent ↔ t = .null)
  /-- No other bytes are, whether they are JSON or not. -/
  json_null (bytes : List UInt8) : Json.decode voc.decode bytes = .ok voc.absent ↔
    Document.ofBytes bytes = ⟨.null, true⟩
  /-- Values that are neither `null` nor a text are refused. -/
  json_other {t : Json.Tree} {cs : List Char} : Spells t cs → t ≠ .null → (∀ s, t ≠ .text s) →
    Json.decode voc.decode (Utf8.encode cs) = .error (Json.Decode.mismatch .text t)
  column_written (v : α) : voc.ofColumn (voc.toColumn v) = .ok v
  bytes_written (v : α) : voc.ofColumnBytes ((voc.toColumn v).map Utf8.ofString) = .ok v
  cell_written (v : α) {row : Row} {name : String} :
    Entries.get? name row = some (Row.tokenField (voc.toColumn v)) →
      row.read (CellReader.member voc) name = .ok v
  json_written (v : α) : Json.decode voc.decode (Utf8.ofString (voc.toValue v).toText) = .ok v

variable {voc}

/-! ## The routes -/

/-- A column of bytes is read as the text they spell. -/
theorem ofColumnBytes_ofString (s? : Option String) :
    voc.ofColumnBytes (s?.map Utf8.ofString) = voc.ofColumn s? := by
  cases s? with
  | none => rfl
  | some s =>
    rw [Option.map_some, ofColumnBytes, Utf8.decode?_ofString]
    exact congrArg voc.parse (String.ofList_toList)

/-- Whatever a text is parsed as, it gives along every route. -/
theorem gives_parse (s : String) : voc.Gives s (voc.parse s) where
  parse := rfl
  column := rfl
  bytes := ofColumnBytes_ofString (some s)
  cell h ht := Row.read_member h ht
  json h := by rw [Json.decode_of_spells h, decode_text]

theorem ofColumnBytes_of_not_text {bytes : List UInt8} (h : ∀ s, bytes ≠ Utf8.ofString s) :
    voc.ofColumnBytes (some bytes) = .error (.notUtf8 voc.noun) := by
  rw [ofColumnBytes, Utf8.decode?_eq_none_iff.2 h]

theorem decode_of_other {t : Json.Tree} (hnull : t ≠ .null) (htext : ∀ s, t ≠ .text s) :
    voc.decode t = .error (Json.Decode.mismatch .text t) := by
  unfold decode
  cases t with
  | null => exact absurd rfl hnull
  | str s? =>
    cases s? with
    | none => rfl
    | some s => exact absurd rfl (htext s)
  | _ => rfl

theorem numberFree_toValue (v : α) : (voc.toValue v).NumberFree := by
  unfold toValue
  cases voc.token? v <;> trivial

/-! ## Lawful vocabularies -/

namespace Lawful

variable (h : voc.Lawful)
include h

theorem ofColumnBytes_absent_iff (bytes? : Option (List UInt8)) :
    voc.ofColumnBytes bytes? = .ok voc.absent ↔ bytes? = none := by
  cases bytes? with
  | none => exact iff_of_true rfl rfl
  | some bytes =>
    refine iff_of_false (fun hbytes => ?_) (by simp)
    rw [ofColumnBytes] at hbytes
    cases hcs : Utf8.decode? bytes with
    | none => simp [hcs] at hbytes
    | some cs =>
      rw [hcs] at hbytes
      exact h.parse_ne_absent _ hbytes

theorem read_absent_iff (row : Row) (name : String) :
    row.read (CellReader.member voc) name = .ok voc.absent ↔
      ∃ type, Entries.get? name row = some ⟨type, .null⟩ := by
  refine ⟨fun hread => ?_, fun ⟨type, hget⟩ => Row.read_of_null hget rfl⟩
  obtain ⟨type, cell, hget, ⟨rfl, -⟩ | ⟨-, hcell⟩⟩ := Row.of_read_eq_ok hread
  · exact ⟨type, hget⟩
  · cases cell with
    | text bytes =>
      cases hcs : Utf8.decode? bytes with
      | none => simp [CellReader.member, hcs] at hcell
      | some cs =>
        cases hv : voc.parse (String.ofList cs) with
        | error e => simp [CellReader.member, hcs, ofColumn, hv, Except.mapError] at hcell
        | ok v =>
          obtain rfl : v = voc.absent := by
            simpa [CellReader.member, hcs, ofColumn, hv, Except.mapError] using hcell
          exact absurd hv (h.parse_ne_absent _)
    | _ => cases hcell

theorem decode_bytes_absent_iff (bytes : List UInt8) :
    Json.decode voc.decode bytes = .ok voc.absent ↔ Document.ofBytes bytes = ⟨.null, true⟩ := by
  rw [Json.decode, Document.decode]
  obtain ⟨root, ended⟩ := Document.ofBytes bytes
  cases hroot : voc.decode root with
  | error f =>
    refine iff_of_false (by simp) fun hdoc => ?_
    rw [(Document.mk.inj hdoc).1, (h.decode_absent_iff .null).2 rfl] at hroot
    cases hroot
  | ok v =>
    have hv : root = .null ↔ v = voc.absent := by
      rw [← h.decode_absent_iff, hroot, Except.ok.injEq]
    cases ended <;> simp [hv]

/-- The routes of a lawful vocabulary agree. -/
theorem agrees : voc.Agrees where
  token {s _} hv := h.parse_of_token hv ▸ gives_parse s
  foreign {s} hs := h.parse_of_no_token hs ▸ gives_parse s
  absent := h.absent_iff
  spelling := h.parse_of_no_token h.spelling ▸ gives_parse voc.absentSpelling
  bytes_notUtf8 _ := ofColumnBytes_of_not_text
  column_absent := h.ofColumn_absent_iff
  bytes_absent := h.ofColumnBytes_absent_iff
  cell_absent := h.read_absent_iff
  json_absent ht := by rw [Json.decode_of_spells ht, h.decode_absent_iff]
  json_null := h.decode_bytes_absent_iff
  json_other ht hnull htext := by rw [Json.decode_of_spells ht, decode_of_other hnull htext]
  column_written := h.ofColumn_toColumn
  bytes_written v := by rw [ofColumnBytes_ofString, h.ofColumn_toColumn]
  cell_written v _ _ hget := by
    rw [Row.read_token hget, h.ofColumn_toColumn]
    rfl
  json_written v := by
    rw [Json.decode, Document.ofBytes_toText (numberFree_toValue v), Document.decode,
      h.decode_toValue]
    rfl

end Lawful

end Vocabulary

/-- Kinds and severities are read alike along every route. -/
theorem enumerations_agree : kinds.Agrees ∧ severities.Agrees :=
  ⟨kinds_lawful.agrees, severities_lawful.agrees⟩

end Courier
