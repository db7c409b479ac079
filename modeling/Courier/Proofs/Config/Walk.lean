import Courier.Proofs.Config.Report
import Courier.Proofs.Json.Places

/-!
# The walk of the leaves with one buffer

A walk can do with one buffer for the pointers of all leaves : it adds the key of a part to the
buffer, and cuts the buffer back to its length before it goes on with the next part. `walk` does so,
and leaves the buffer as it was (`walk_eq`). What it finds are the leaves of the value with their
pointers, so that a leaf is found by its pointer and no other leaf has it (`leaves_faithful`).
-/

namespace Courier.Config

open Json (Value)
open Json.Value
open Json.Pointer (escape ofPath replaceChar replacePair)

/-- What a walk has at hand. -/
structure Walk where
  /-- The pointer of the part that it is in. -/
  buffer : List Char
  /-- The leaves so far with their pointers. -/
  found : List (String × Value)

namespace Walk

/-- Goes on to a part with a key. -/
def enter (s : Walk) (key : List Char) : Walk :=
  { s with buffer := s.buffer ++ '/' :: key }

/-- Cuts the buffer back. -/
def leave (s : Walk) (length : Nat) : Walk :=
  { s with buffer := s.buffer.take length }

/-- The pointer in the buffer. -/
def pointer (buffer : List Char) : String :=
  if buffer.isEmpty then "/" else String.ofList buffer

end Walk

mutual

/-- A walk through a value. -/
def walk : Value → Walk → Walk
  | .arr items, s => walkItems s.buffer.length 0 items s
  | .obj members, s => walkMembers s.buffer.length members s
  | leaf, s => { s with found := s.found ++ [(Walk.pointer s.buffer, leaf)] }

/-- A walk through the items of an array, from the `i`-th on. -/
def walkItems (length i : Nat) : List Value → Walk → Walk
  | [], s => s
  | v :: rest, s =>
    walkItems length (i + 1) rest ((walk v (s.enter (Nat.toDigits 10 i))).leave length)

/-- A walk through the members of an object. -/
def walkMembers (length : Nat) : List (String × Value) → Walk → Walk
  | [], s => s
  | (k, v) :: rest, s =>
    let key := replaceChar '/' ['~', '1'] (replaceChar '~' ['~', '0'] k.toList)
    walkMembers length rest ((walk v (s.enter key)).leave length)

end

namespace Walk

variable {s : Walk} {k : String} {ls ls' : List (List String × Value)}

/-- The walk with further leaves, found below the part that it is in. -/
def add (s : Walk) (ls : List (List String × Value)) : Walk :=
  { s with found := s.found ++ ls.map fun l => (pointer (s.buffer ++ ofPath l.1), l.2) }

theorem add_nil (s : Walk) : s.add [] = s := by
  rw [add, List.map_nil, List.append_nil]

theorem add_append (s : Walk) (ls ls' : List (List String × Value)) :
    s.add (ls ++ ls') = (s.add ls).add ls' := by
  simp only [add, List.map_append, List.append_assoc]

theorem add_leaf (s : Walk) (v : Value) :
    s.add [([], v)] = { s with found := s.found ++ [(pointer s.buffer, v)] } := by
  rw [add, List.map_singleton, show ofPath [] = [] from rfl, List.append_nil]

/-- The leaves below a key, once the buffer is cut back. -/
theorem leave_add_enter (s : Walk) (k : String) (ls : List (List String × Value)) :
    ((s.enter (escape k.toList)).add ls).leave s.buffer.length =
      s.add (ls.map fun l => (k :: l.1, l.2)) := by
  simp only [enter, add, leave, List.take_left, List.map_map, Function.comp_def,
    Json.Pointer.ofPath_cons, List.append_assoc, List.cons_append]

end Walk

mutual

/-- A walk finds the leaves of a value and leaves the buffer as it was. -/
theorem walk_eq : ∀ (v : Value) (s : Walk), walk v s = s.add v.leaves
  | .arr items, s => by rw [walk, walkItems_eq 0 items rfl, leaves]
  | .obj members, s => by rw [walk, walkMembers_eq members rfl, leaves]
  | .null, s | .bool _, s | .num _, s | .str _, s => (s.add_leaf _).symm

theorem walkItems_eq : ∀ (i : Nat) (items : List Value) {s : Walk} {length : Nat},
    s.buffer.length = length → walkItems length i items s = s.add (leavesOfItems i items)
  | i, [], s, length, h => (s.add_nil).symm
  | i, v :: rest, s, length, h => by
    have hkey : escape (String.ofList (Nat.toDigits 10 i)).toList = Nat.toDigits 10 i := by
      rw [String.toList_ofList, Json.Pointer.escape_toDigits]
    rw [walkItems, ← h, walk_eq v, ← hkey, Walk.leave_add_enter, leavesOfItems, Walk.add_append]
    exact walkItems_eq (i + 1) rest rfl

theorem walkMembers_eq : ∀ (members : List (String × Value)) {s : Walk} {length : Nat},
    s.buffer.length = length → walkMembers length members s = s.add (leavesOfMembers members)
  | [], s, length, h => (s.add_nil).symm
  | (k, v) :: rest, s, length, h => by
    rw [walkMembers, ← h, ← Json.Pointer.escape_eq_replace, walk_eq v, Walk.leave_add_enter,
      leavesOfMembers, Walk.add_append]
    exact walkMembers_eq rest rfl

end

/-! ## What the walk finds -/

theorem pointer_ofPath (p : List String) : Walk.pointer (ofPath p) = leafPointer p := by
  cases p <;> rfl

/-- A walk from the root. -/
theorem walk_root (v : Value) :
    walk v ⟨[], []⟩ = ⟨[], v.leaves.map fun l => (leafPointer l.1, l.2)⟩ := by
  rw [walk_eq, Walk.add]
  simp only [List.nil_append, pointer_ofPath]

/-- The pointer of a leaf that is not the whole value leads to it. -/
theorem pointer?_leafPointer {v w : Value} {p : List String} (hv : v.Ordered)
    (hroot : v.isLeaf = false) (h : (p, w) ∈ v.leaves) : v.pointer? (leafPointer p) = some w := by
  have hp : p ≠ [] := by
    rintro rfl
    rw [isLeaf_of_nil_mem h] at hroot
    cases hroot
  rw [leafPointer, List.isEmpty_eq_false_iff.2 hp, if_neg Bool.false_ne_true, pointer?_ofPath,
    descend?_eq_some_iff hv]
  exact (mem_leaves_iff.1 h).1

/-- Leaf pointers are faithful. The walk with one buffer ends with the buffer empty, and lists the
leaves of the value with their pointers : every part that is neither an array nor an object, in each
of its places, once. The pointers are distinct, and each leads to its leaf, where a pointer is read
part by part, `~1` before `~0`, and the number of an item by its digits only. -/
theorem leaves_faithful {v : Value} (hv : v.Ordered) (hroot : v.isLeaf = false) :
    walk v ⟨[], []⟩ = ⟨[], v.leaves.map fun l => (leafPointer l.1, l.2)⟩ ∧
    (∀ p w, (p, w) ∈ v.leaves ↔ Occurs v p w ∧ w.isLeaf = true) ∧
    (v.leaves.map Prod.fst).Nodup ∧
    (v.leaves.map fun l => leafPointer l.1).Nodup ∧
    (∀ l ∈ v.leaves, v.pointer? (leafPointer l.1) = some l.2) ∧
    (∀ cs, Json.Pointer.split cs = cs.splitOn '/') ∧
    (∀ key, Json.Pointer.unescape key = replacePair '0' '~' (replacePair '1' '/' key)) ∧
    ∀ key i, Json.Pointer.index? key = some i ↔ key = Nat.toDigits 10 i :=
  ⟨walk_root v, fun _ _ => mem_leaves_iff, nodup_leaves hv, nodup_leafPointers hv,
    fun _ hl => pointer?_leafPointer hv hroot hl, Json.Pointer.split_eq_splitOn,
    Json.Pointer.unescape_eq_replace, fun _ _ => Json.Pointer.index?_eq_some_iff⟩

/-- An empty key, a slash, a tilde, and keys that look as if they were written. -/
theorem leaves_faithful_escaped :
    let v : Value := .obj [("", .null), ("/", .bool true), ("~", .obj [("", .str "a")]),
      ("~0", .arr [.null, .str "b"]), ("~1", .str "c")]
    v.Ordered ∧ v.isLeaf = false ∧ v.pointer? "/" = some .null ∧
      v.pointer? "/~1" = some (.bool true) ∧ v.pointer? "/~0/" = some (.str "a") ∧
      v.pointer? "/~00/1" = some (.str "b") ∧ v.pointer? "/~01" = some (.str "c") := by
  intro v
  have hv : v.Ordered :=
    ⟨by decide, trivial, trivial, ⟨List.pairwise_singleton _ _, trivial, trivial⟩,
      ⟨trivial, trivial, trivial⟩, trivial, trivial⟩
  obtain ⟨-, -, -, -, hfound, -⟩ := leaves_faithful hv rfl
  have hleaves : v.leaves = [([""], .null), (["/"], .bool true), (["~", ""], .str "a"),
      (["~0", "0"], .null), (["~0", "1"], .str "b"), (["~1"], .str "c")] := rfl
  rw [hleaves] at hfound
  simp only [List.forall_mem_cons] at hfound
  obtain ⟨hempty, hslash, htilde, -, hitem, hlast, -⟩ := hfound
  exact ⟨hv, rfl, hempty, hslash, htilde, hitem, hlast⟩

end Courier.Config
