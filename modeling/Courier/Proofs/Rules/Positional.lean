import Courier.Proofs.Event.Format
import Courier.Proofs.Json.Positional
import Courier.Proofs.Rules.Format

/-!
# Events, rules and snapshots in positional form

An event, a rule and a snapshot may each be given as the array of their fields in order, and are
read then as the object with the same values under the names of the fields. An array may end before
the last field of each, and before no other (`positional_records`).
-/

namespace Courier

open Json (Positional Spells Tree)

/-- The positional and the named form of events, of rules and of snapshots agree. -/
theorem positional_records :
    Positional Event.decode ["name", "url", "tags", "type", "severity", "username", "message",
      "mute", "mute_reason", "rules_version", "rule_ids"] 10 ∧
    Positional Rule.decode ["id", "name", "object_filter_expr"] 2 ∧
    Positional Snapshot.decode ["version", "rules"] 1 :=
  ⟨Event.layout.positional (by decide), Rule.layout.positional (by decide),
    Snapshot.layout.positional (by decide)⟩

/-- A rule without a filter in both forms, and an array that is too short for a rule. -/
theorem positional_records_rule :
    (∃ cs cs', Spells (.array [.text "7", .text "load"]) cs ∧
      Spells (.object [("id", .text "7"), ("name", .text "load")]) cs' ∧
      Json.decode Rule.decode (Utf8.encode cs) = .ok ⟨"7", "load", none⟩ ∧
      Json.decode Rule.decode (Utf8.encode cs') = .ok ⟨"7", "load", none⟩) ∧
    ∃ cs f, Spells (.array [.text "7"]) cs ∧
      Json.decode Rule.decode (Utf8.encode cs) = .error f := by
  obtain ⟨-, hrule, -⟩ := positional_records
  have htexts : ∀ ks : List String, ∀ t ∈ ks.map Tree.text, ∃ cs, Spells t cs := by
    intro ks t ht
    obtain ⟨s, -, rfl⟩ := List.mem_map.1 ht
    exact ⟨_, .string (Json.spellsText_renderText s)⟩
  obtain ⟨⟨cs, hcs⟩, cs', hcs'⟩ := hrule.texts (htexts ["7", "load"])
  obtain ⟨⟨short, hshort⟩, -⟩ := hrule.texts (htexts ["7"])
  have hnamed : Json.decode Rule.decode (Utf8.encode cs') = .ok ⟨"7", "load", none⟩ := by
    rw [Json.decode_of_spells hcs']
    rfl
  have hpositional := (hrule.agrees hcs hcs' _).2 ⟨le_rfl, by decide, hnamed⟩
  obtain ⟨f, hf⟩ := hrule.refuses hshort (.inl (by decide))
  exact ⟨⟨cs, cs', hcs, hcs', hpositional, hnamed⟩, short, f, hshort, hf⟩

end Courier
