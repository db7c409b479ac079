import Courier.Proofs.Config.Load
import Courier.Proofs.Json.PrefixFree
import Courier.Proofs.Text.Utf8

/-!
# The canonical text names the configuration

The value of a loaded configuration is ordered, so that its contents settle it
(`alike_iff_eq`), and finite, so that its text settles it (`canonicalText_eq_iff`). Hence one
canonical text stands for one configuration, whatever layers it was made of, and its digest is
of bytes that no other configuration has (`canonicalText_identifies`).
-/

namespace Courier.Config

open Json.Value (Alike)

variable {ds ds' : List (Option Yaml.Value)} {c c' : Config}

/-- Loaded values with the same contents are equal. -/
theorem alike_iff_eq (h : ofDocuments ds = .ok c) (h' : ofDocuments ds' = .ok c') :
    c.value.Alike c'.value ↔ c.value = c'.value := by
  constructor
  · exact fun ha => ha.eq_of_ordered (ordered_value h) (ordered_value h')
  · intro heq
    rw [heq]
    exact Alike.refl _

theorem canonicalText_eq_iff (h : ofDocuments ds = .ok c) (h' : ofDocuments ds' = .ok c') :
    c.canonicalText = c'.canonicalText ↔ c.value = c'.value := by
  refine ⟨Json.Value.toText_injective (finite_value h) (finite_value h'), fun heq => ?_⟩
  rw [canonicalText, heq, canonicalText]

/-- Two loads, of any layers, have one canonical text if and only if they have the same
contents. With the same contents they have the same digest, and with others the digests are of
different bytes : the digest of a load is the SHA-256 digest, in hexadecimal digits, of the bytes of
its canonical text. -/
theorem canonicalText_identifies (h : ofDocuments ds = .ok c) (h' : ofDocuments ds' = .ok c') :
    (c.canonicalText = c'.canonicalText ↔ c.value.Alike c'.value) ∧
    (c.value.Alike c'.value → c.hash = c'.hash) ∧
    (¬c.value.Alike c'.value →
      Utf8.ofString c.canonicalText ≠ Utf8.ofString c'.canonicalText) ∧
    c.hash = Sha256.hexDigest (Utf8.ofString c.canonicalText) ∧
    c'.hash = Sha256.hexDigest (Utf8.ofString c'.canonicalText) := by
  have htext : c.canonicalText = c'.canonicalText ↔ c.value.Alike c'.value := by
    rw [canonicalText_eq_iff h h', alike_iff_eq h h']
  refine ⟨htext, fun ha => ?_, fun hn hbytes => hn ?_, rfl, rfl⟩
  · rw [hash, htext.2 ha, hash]
  · exact htext.1 (Utf8.ofString_injective hbytes)

/-- One configuration as one layer and as two, and another that has a text for a number. -/
theorem canonicalText_identifies_split :
    let below : Yaml.Value := .map [(.str "x", .null)]
    let one := [some (.map [(.str "b", .int 2), (.str "a", below)])]
    let two := [some (.map [(.str "a", .str "y"), (.str "b", .int 2)]),
      some (.map [(.str "a", below)])]
    let other := [some (.map [(.str "b", .str "2"), (.str "a", below)])]
    ∃ c c' c'' : Config, ofDocuments one = .ok c ∧ ofDocuments two = .ok c' ∧
      ofDocuments other = .ok c'' ∧ c.canonicalText = c'.canonicalText ∧ c.hash = c'.hash ∧
      Utf8.ofString c.canonicalText ≠ Utf8.ofString c''.canonicalText := by
  intro below one two other
  let config (v : Json.Value) : Config := ⟨.obj [("a", .obj [("x", .null)]), ("b", v)]⟩
  have hone : ofDocuments one = .ok (config (.num (.int 2))) := rfl
  have htwo : ofDocuments two = .ok (config (.num (.int 2))) := rfl
  have hother : ofDocuments other = .ok (config (.str "2")) := rfl
  have hne : ¬(config (.num (.int 2))).value.Alike (config (.str "2")).value := by
    intro h
    cases h with
    | obj _ h => nomatch h "b" _ _ rfl rfl
  obtain ⟨htext, hhash, -⟩ := canonicalText_identifies hone htwo
  exact ⟨_, _, _, hone, htwo, hother, htext.2 (Alike.refl _), hhash (Alike.refl _),
    (canonicalText_identifies hone hother).2.2.1 hne⟩

end Courier.Config
