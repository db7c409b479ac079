import Courier.Json.Record
import Courier.Json.Write
import Courier.Proofs.Dict
import Courier.Proofs.Json.Build
import Mathlib.Data.Set.List

/-!
# Reading what is written

`Value.toTree` is a value as a tree without a broken place. What is written of a value is a text
of that tree (`Value.spells_render`), so it is the document in the written bytes
(`Document.ofBytes_toText`). The decoders of dictionaries and sets of texts give back what was
written (`dict_toTree`, `keySet_toTree`). A record in named form is read one member at a time
(`members_cons`).
-/

namespace Courier.Json

/-! ## Strings -/

/-- What a literal writes for a character is a part that stands for the character. -/
theorem piece_escapeChar (c : Char) : ∃ p : Piece, p.Spells (escapeChar c) ∧
    ∀ rest, Piece.text? (p :: rest) = (Piece.text? rest).map (c :: ·) := by
  have hletter : ∀ l, (l, c) ∈ Piece.letters → ∃ p : Piece, p.Spells ['\\', l] ∧
      ∀ rest, Piece.text? (p :: rest) = (Piece.text? rest).map (c :: ·) := fun l hl =>
    ⟨.char c, .letter hl, fun _ => rfl⟩
  unfold escapeChar
  split
  · exact hletter '"' (by decide)
  · exact hletter '\\' (by decide)
  · exact hletter 'b' (by decide)
  · exact hletter 'f' (by decide)
  · exact hletter 'n' (by decide)
  · exact hletter 'r' (by decide)
  · exact hletter 't' (by decide)
  · next hq hb _ _ _ _ _ =>
    split
    · next hc =>
      have hvalue : 16 * (16 * (16 * 0 + 0) + c.toNat / 16) + c.toNat % 16 = c.toNat := by omega
      have hdigits := @Piece.Spells.digits '0' '0' _ _ 0 0 _ _ rfl rfl
        (Scan.hexDigit?_digitChar (c.toNat / 16) (by omega))
        (Scan.hexDigit?_digitChar (c.toNat % 16) (by omega))
      rw [hvalue] at hdigits
      refine ⟨.unit c.toNat, hdigits, fun rest => ?_⟩
      rw [Piece.text?_unit (by omega), if_neg (by omega), Char.ofNat_toNat]
    · next hc => exact ⟨.char c, .plain hq hb hc, fun _ => rfl⟩

theorem spellsText_renderText (s : String) : SpellsText (some s) (renderText s) := by
  have hparts : ∀ cs : List Char, ∃ parts : List (Piece × List Char),
      (∀ p ∈ parts, p.1.Spells p.2) ∧ parts.flatMap Prod.snd = cs.flatMap escapeChar ∧
        Piece.text? (parts.map Prod.fst) = some cs := by
    intro cs
    induction cs with
    | nil => exact ⟨[], by simp, rfl, rfl⟩
    | cons c cs ih =>
      obtain ⟨parts, hspells, htext, hcs⟩ := ih
      obtain ⟨p, hp, hrest⟩ := piece_escapeChar c
      refine ⟨(p, escapeChar c) :: parts, List.forall_mem_cons.2 ⟨hp, hspells⟩, ?_, ?_⟩
      · rw [List.flatMap_cons, htext, List.flatMap_cons]
      · rw [List.map_cons, hrest, hcs, Option.map_some]
  obtain ⟨parts, hspells, htext, hcs⟩ := hparts s.toList
  have h := SpellsText.mk hspells
  rw [hcs, htext, Option.map_some, String.ofList_toList] at h
  exact h

theorem spellsName_renderText (s : String) : SpellsName (some s) (renderText s) := by
  simpa using SpellsName.mk blank_nil (spellsText_renderText s) blank_nil

/-- Trees that have texts are the items of an array that has one. -/
theorem exists_spells_array {ts : List Tree} (h : ∀ t ∈ ts, ∃ cs, Spells t cs) :
    ∃ cs, Spells (.array ts) cs := by
  have hitems : ∃ items : List Item, items.map Item.tree = ts ∧
      ∀ i ∈ items, Spells i.tree i.text := by
    induction ts with
    | nil => exact ⟨[], rfl, by simp⟩
    | cons t ts ih =>
      obtain ⟨⟨cs, hcs⟩, hts⟩ := List.forall_mem_cons.1 h
      obtain ⟨items, hmap, htexts⟩ := ih hts
      exact ⟨⟨t, cs⟩ :: items, by rw [List.map_cons, hmap], List.forall_mem_cons.2 ⟨hcs, htexts⟩⟩
  obtain ⟨items, rfl, htexts⟩ := hitems
  cases items with
  | nil => exact ⟨_, .emptyArray blank_nil⟩
  | cons first rest => exact ⟨_, .array htexts⟩

/-- Trees that have texts are the values of an object that has one, under any names. -/
theorem exists_spells_object {ms : List (String × Tree)} (h : ∀ m ∈ ms, ∃ cs, Spells m.2 cs) :
    ∃ cs, Spells (.object ms) cs := by
  have hmembers : ∃ members : List Member,
      members.map (fun m => (m.name, m.tree)) = ms.map (fun m => (some m.1, m.2)) ∧
        (∀ m ∈ members, SpellsName m.name m.nameText) ∧ ∀ m ∈ members, Spells m.tree m.text := by
    induction ms with
    | nil => exact ⟨[], rfl, by simp, by simp⟩
    | cons m ms ih =>
      obtain ⟨⟨cs, hcs⟩, hms⟩ := List.forall_mem_cons.1 h
      obtain ⟨members, hmap, hnames, htexts⟩ := ih hms
      exact ⟨⟨some m.1, m.2, renderText m.1, cs⟩ :: members, by rw [List.map_cons, hmap, List.map_cons],
        List.forall_mem_cons.2 ⟨spellsName_renderText m.1, hnames⟩,
        List.forall_mem_cons.2 ⟨hcs, htexts⟩⟩
  obtain ⟨members, hmap, hnames, htexts⟩ := hmembers
  rw [Tree.object, ← hmap]
  cases members with
  | nil => exact ⟨_, .emptyObject blank_nil⟩
  | cons first rest => exact ⟨_, .object hnames htexts⟩

/-! ## Values -/

namespace Value

mutual
/-- The tree of a value. -/
def toTree : Value → Tree
  | .null => .null
  | .bool b => .bool b
  | .num n => .num (some n)
  | .str s => .str (some s)
  | .arr items => .arr (treesItems items) true
  | .obj members => .obj (treesMembers members) true

/-- The trees of a list of values. -/
def treesItems : List Value → List Tree
  | [] => []
  | v :: rest => v.toTree :: treesItems rest

/-- The trees of a list of members. -/
def treesMembers : List (String × Value) → List (Option String × Tree)
  | [] => []
  | (k, v) :: rest => (some k, v.toTree) :: treesMembers rest
end

theorem treesItems_eq_map : ∀ vs : List Value, treesItems vs = vs.map toTree
  | [] => rfl
  | v :: rest => congrArg (toTree v :: ·) (treesItems_eq_map rest)

theorem treesMembers_eq_map :
    ∀ ms : List (String × Value), treesMembers ms = ms.map fun m => (some m.1, m.2.toTree)
  | [] => rfl
  | m :: rest => congrArg ((some m.1, m.2.toTree) :: ·) (treesMembers_eq_map rest)

theorem toTree_arr (vs : List Value) : (arr vs).toTree = .array (vs.map toTree) :=
  congrArg (Tree.arr · true) (treesItems_eq_map vs)

theorem toTree_obj (ms : List (String × Value)) :
    (obj ms).toTree = .object (ms.map fun m => (m.1, m.2.toTree)) := by
  rw [toTree, treesMembers_eq_map, Tree.object, List.map_map]
  rfl

theorem toTree_eq_text_iff {v : Value} {s : String} : v.toTree = .text s ↔ v = .str s := by
  cases v <;> simp [toTree, Tree.text]

/-- A value with the tree of an array of texts is that array. -/
theorem toTree_eq_texts_iff {v : Value} {ks : List String} :
    v.toTree = .array (ks.map .text) ↔ v = .arr (ks.map .str) := by
  have hitems : ∀ (vs : List Value) (ks : List String),
      vs.map toTree = ks.map Tree.text ↔ vs = ks.map .str := by
    intro vs
    induction vs with
    | nil => simp [eq_comm]
    | cons v vs ih =>
      intro ks
      cases ks with
      | nil => simp
      | cons k ks => simp [toTree_eq_text_iff, ih]
  cases v with
  | arr vs => simp [toTree_arr, Tree.array, hitems]
  | _ => simp [toTree, Tree.array]

/-- A value with the tree of an object of texts is one. -/
theorem exists_toTree_eq_object_iff {v : Value} :
    (∃ ms, v.toTree = .object ms ∧ ∀ m ∈ ms, ∃ s, m.2 = .text s) ↔
      ∃ es : List (String × String), v = .obj (es.map fun e => (e.1, .str e.2)) := by
  constructor
  · rintro ⟨ms, hv, hms⟩
    cases v with
    | obj ns =>
      rw [toTree_obj] at hv
      obtain rfl := Tree.object_injective hv
      have hns : ns ∈ Set.range (List.map fun e : String × String => (e.1, Value.str e.2)) := by
        rw [Set.range_list_map]
        rintro ⟨k, v⟩ hm
        obtain ⟨s, hs⟩ := hms _ (List.mem_map_of_mem hm)
        exact ⟨(k, s), congrArg (k, ·) (toTree_eq_text_iff.1 hs).symm⟩
      obtain ⟨es, rfl⟩ := hns
      exact ⟨es, rfl⟩
    | _ => cases hv
  · rintro ⟨es, rfl⟩
    refine ⟨_, toTree_obj _, fun m hm => ?_⟩
    simp only [List.map_map, List.mem_map] at hm
    obtain ⟨e, -, rfl⟩ := hm
    exact ⟨e.2, rfl⟩

mutual
/-- Whether no part of the value is a number. -/
def NumberFree : Value → Prop
  | .num _ => False
  | .arr items => NumberFreeItems items
  | .obj members => NumberFreeMembers members
  | _ => True

/-- `NumberFree` for each value of a list. -/
def NumberFreeItems : List Value → Prop
  | [] => True
  | v :: rest => v.NumberFree ∧ NumberFreeItems rest

/-- `NumberFree` for each value of a list of members. -/
def NumberFreeMembers : List (String × Value) → Prop
  | [] => True
  | (_, v) :: rest => v.NumberFree ∧ NumberFreeMembers rest
end

theorem numberFreeItems_texts : ∀ ks : List String, NumberFreeItems (ks.map .str)
  | [] => trivial
  | _ :: rest => ⟨trivial, numberFreeItems_texts rest⟩

theorem numberFreeMembers_texts :
    ∀ es : List (String × String), NumberFreeMembers (es.map fun e => (e.1, .str e.2))
  | [] => trivial
  | _ :: rest => ⟨trivial, numberFreeMembers_texts rest⟩

theorem numberFreeMembers_append :
    ∀ {ms ms' : List (String × Value)}, NumberFreeMembers ms → NumberFreeMembers ms' →
      NumberFreeMembers (ms ++ ms')
  | [], _, _, h' => h'
  | _ :: _, _, h, h' => ⟨h.1, numberFreeMembers_append h.2 h'⟩

mutual
/-- What is written of a value is a text of its tree. -/
theorem spells_render : ∀ {v : Value}, v.NumberFree → Spells v.toTree v.render
  | .null, _ => .null
  | .bool true, _ => .truth
  | .bool false, _ => .falsity
  | .num _, h => h.elim
  | .str s, _ => .string (spellsText_renderText s)
  | .arr [], _ => .emptyArray blank_nil
  | .arr (v :: rest), h => by
    obtain ⟨items, htrees, htext, hitems⟩ := spells_renderItems h.2
    have hspells := @Spells.array ⟨v.toTree, v.render⟩ items
      (List.forall_mem_cons.2 ⟨spells_render h.1, hitems⟩)
    rw [List.map_cons, ← htrees, ← htext] at hspells
    exact hspells
  | .obj [], _ => .emptyObject blank_nil
  | .obj ((k, v) :: rest), h => by
    obtain ⟨members, htrees, htext, hnames, hmembers⟩ := spells_renderMembers h.2
    have hspells := @Spells.object ⟨some k, v.toTree, renderText k, v.render⟩ members
      (List.forall_mem_cons.2 ⟨spellsName_renderText k, hnames⟩)
      (List.forall_mem_cons.2 ⟨spells_render h.1, hmembers⟩)
    rw [List.map_cons, ← htrees, ← htext, Member.whole, List.append_assoc] at hspells
    exact hspells

theorem spells_renderItems : ∀ {vs : List Value}, NumberFreeItems vs →
    ∃ items : List Item, treesItems vs = items.map Item.tree ∧
      renderItems vs = Item.following items ++ [']'] ∧ ∀ i ∈ items, Spells i.tree i.text
  | [], _ => ⟨[], rfl, rfl, by simp⟩
  | v :: rest, h => by
    obtain ⟨items, htrees, htext, hitems⟩ := spells_renderItems h.2
    refine ⟨⟨v.toTree, v.render⟩ :: items, ?_, ?_,
      List.forall_mem_cons.2 ⟨spells_render h.1, hitems⟩⟩
    · rw [treesItems, htrees, List.map_cons]
    · rw [renderItems, htext]
      simp [Item.following]

theorem spells_renderMembers : ∀ {ms : List (String × Value)}, NumberFreeMembers ms →
    ∃ members : List Member, treesMembers ms = members.map (fun m => (m.name, m.tree)) ∧
      renderMembers ms = Member.following members ++ ['\x7d'] ∧
      (∀ m ∈ members, SpellsName m.name m.nameText) ∧ ∀ m ∈ members, Spells m.tree m.text
  | [], _ => ⟨[], rfl, rfl, by simp, by simp⟩
  | (k, v) :: rest, h => by
    obtain ⟨members, htrees, htext, hnames, hmembers⟩ := spells_renderMembers h.2
    refine ⟨⟨some k, v.toTree, renderText k, v.render⟩ :: members, ?_, ?_,
      List.forall_mem_cons.2 ⟨spellsName_renderText k, hnames⟩,
      List.forall_mem_cons.2 ⟨spells_render h.1, hmembers⟩⟩
    · rw [treesMembers, htrees, List.map_cons]
    · rw [renderMembers, htext]
      simp [Member.following, Member.whole]
end

end Value

/-- The document in the bytes of a written value is the tree of the value. -/
theorem Document.ofBytes_toText {v : Value} (h : v.NumberFree) :
    ofBytes (Utf8.ofString v.toText) = ⟨v.toTree, true⟩ := by
  rw [Utf8.ofString, Value.toText, String.toList_ofList, ofBytes_of_spells (Value.spells_render h)]

/-! ## Decoders -/

open Value

namespace Decode

theorem entries_texts :
    ∀ (es : List (String × String)) (acc : Dict String),
      entries text true acc (treesMembers (es.map fun e => (e.1, .str e.2))) =
        .ok (es.foldl (fun acc e => acc.insert e.1 e.2) acc)
  | [], acc => rfl
  | e :: rest, acc => by
    rw [List.map_cons, treesMembers, entries, toTree, text]
    exact entries_texts rest (acc.insert e.1 e.2)

/-- A dictionary of texts is read back from an object. -/
theorem dict_toTree (d : Dict String) :
    dict text (toTree (.obj (d.entries.map fun e => (e.1, .str e.2)))) = .ok d := by
  rw [toTree, dict, entries_texts, Dict.foldl_insert_entries]

theorem items_texts :
    ∀ (ks acc : List String),
      items text true acc (treesItems (ks.map .str)) = .ok (acc.reverse ++ ks)
  | [], acc => by rw [List.map_nil, treesItems, items, if_pos rfl, List.append_nil]
  | k :: rest, acc => by
    rw [List.map_cons, treesItems, items, toTree, text]
    dsimp only
    rw [items_texts rest (k :: acc), List.reverse_cons, List.append_assoc, List.singleton_append]

/-- A set of texts is read back from an array. -/
theorem keySet_toTree (s : KeySet) : keySet (toTree (.arr (s.toList.map .str))) = .ok s := by
  rw [keySet, toTree, list, items_texts, List.reverse_nil, List.nil_append]
  exact congrArg Except.ok s.ofList_toList

end Decode

namespace Record

variable {φ δ α : Type} (r : Record φ δ α)

/-- A member with the name of a field fills its slot, if the slot is free. -/
theorem members_cons {closed : Bool} {d d' : δ} {k : String} {f : φ} {t : Tree}
    (hk : r.field? k = some f) (hd : r.filled f d = false) (ht : r.fill f t d = .ok d')
    (rest : List (Option String × Tree)) :
    r.members closed d ((some k, t) :: rest) = r.members closed d' rest := by
  rw [members, hk]
  dsimp only
  rw [hd, ht]
  rfl

end Record

end Courier.Json
