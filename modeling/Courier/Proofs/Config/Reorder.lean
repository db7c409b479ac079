import Courier.Config.Layers
import Courier.Proofs.Yaml.Reorder

/-!
# The order of keys in layers

Reordering the entries of mappings changes nothing about a configuration, as long as no two
keys of one mapping become one text (`ofDocuments_reordered`) : the same value is loaded, with
the same canonical text and digest, or loading fails alike. Two keys may be distinct and
become one text nevertheless; then the configuration depends on their order
(`ofDocuments_colliding`).
-/

namespace Courier.Config

open Yaml.Value (Reorders KeysApart)

/-- The documents are both invalid, or one is the other reordered. -/
def SameEntries : Option Yaml.Value → Option Yaml.Value → Prop :=
  Option.Rel Reorders

variable {ds ds' : List (Option Yaml.Value)}

theorem layer_reordered {d d' : Option Yaml.Value} (h : SameEntries d d')
    (ha : ∀ y, d = some y → y.KeysApart) (i : Nat) : layer i d = layer i d' := by
  cases h with
  | none => rfl
  | some hr =>
    unfold layer
    dsimp only
    rw [hr.toJson?_eq (ha _ rfl)]

theorem layers_reordered (h : List.Forall₂ SameEntries ds ds')
    (ha : ∀ y, some y ∈ ds → y.KeysApart) (i : Nat) : layers i ds = layers i ds' := by
  induction h generalizing i with
  | nil => rfl
  | @cons d d' ds ds' hd _ ih =>
    have hlayer : layer i d = layer i d' := layer_reordered hd (fun y hy => ha y (by simp [hy])) i
    rw [layers, layers, hlayer, ih (fun y hy => ha y (by simp [hy])) (i + 1)]

/-- Layers load alike in any order of the entries of their mappings, if the keys of each
mapping stay apart as texts. -/
theorem ofDocuments_reordered (h : List.Forall₂ SameEntries ds ds')
    (ha : ∀ y, some y ∈ ds → y.KeysApart) : ofDocuments ds = ofDocuments ds' := by
  rw [ofDocuments, ofDocuments, layers_reordered h ha]

/-- Three keys of three kinds, in a list below a tag, after a document that is not valid. -/
theorem ofDocuments_reordered_nested :
    ofDocuments [none, some (.tagged "!t" (.seq
        [.map [(.int 1, .null), (.bool true, .str "x"), (.str "a", .map [])], .null]))] =
      ofDocuments [none, some (.tagged "!t" (.seq
        [.map [(.str "a", .map []), (.int 1, .null), (.bool true, .str "x")], .null]))] := by
  refine ofDocuments_reordered (.cons .none (.cons (.some (.single ?_)) .nil)) fun y hy => ?_
  · refine .tagged "!t" (.item [] [.null] (.entries ?_))
    exact @List.perm_append_comm _ [_, _] [_]
  · have hkeys : [((.int 1, .null) : Yaml.Value × Yaml.Value), (.bool true, .str "x"),
        (.str "a", .map [])].Pairwise Yaml.Value.Apart := by
      rw [Yaml.Value.pairwise_apart_iff]
      simp [Yaml.Value.jsonKey?, show String.ofList (Json.renderInt 1) = "1" by rfl]
    obtain rfl : y = _ := by simpa using hy
    exact ⟨⟨hkeys, trivial, trivial, ⟨List.Pairwise.nil, trivial⟩, trivial⟩, trivial, trivial⟩

/-- The number 1 and the text 1 are two keys of a mapping and one key of an object, where
the entry that comes last stays. -/
theorem ofDocuments_colliding :
    ∃ es fs : List (Yaml.Value × Yaml.Value), es.Perm fs ∧ Yaml.Value.distinctKeys es = true ∧
      ofDocuments [some (.map es)] ≠ ofDocuments [some (.map fs)] := by
  refine ⟨[(.int 1, .str "a"), (.str "1", .str "b")], [(.str "1", .str "b"), (.int 1, .str "a")],
    List.Perm.swap _ _ _, rfl, fun h => ?_⟩
  have hb : ofDocuments [some (.map [(.int 1, .str "a"), (.str "1", .str "b")])] =
      .ok ⟨.obj [("1", .str "b")]⟩ := by rfl
  have ha : ofDocuments [some (.map [(.str "1", .str "b"), (.int 1, .str "a")])] =
      .ok ⟨.obj [("1", .str "a")]⟩ := by rfl
  rw [hb, ha] at h
  simp at h

end Courier.Config
