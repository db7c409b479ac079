import Courier.Proofs.Config.Load
import Courier.Proofs.Json.Leaves
import Courier.Proofs.Text.Blank

/-!
# Secrets in configurations

A secret is a text of some size that starts, past blanks, like a key or a token of a well-known
kind (`Secret`). Loading layers that are all valid fails exactly if the merged value has a secret
somewhere, and the error names the place of the first one on the walk of the leaves; it says
nothing else of the value, so that two values that differ by their secrets only fail alike
(`ofDocuments_secret`).

Only the merged value is looked at. A secret of a layer is found if it is in the value that settles
its place (`ofDocuments_secret_settled`), and not if a later layer overrides it
(`ofDocuments_secret_replaced`).
-/

namespace Courier.Config

open Json (Value)
open Json.Value

variable {v w : Value} {s : String}

/-! ## Texts that are secrets -/

/-- Blanks around it aside, the text has the size and the start of a secret. -/
def Secret (s : String) : Prop :=
  ∃ core, Text.Trims s.toList core ∧ secretSize ≤ (Utf8.encode core).length ∧
    ∃ m ∈ secretMarks, m.toList <+: core

theorem looksSecret_iff : looksSecret s = true ↔ Secret s := by
  unfold looksSecret Secret
  simp only [← Text.trimList_eq_iff, exists_eq_left', Bool.and_eq_true, decide_eq_true_eq,
    List.any_eq_true, List.isPrefixOf_iff_prefix]

theorem isSecret_iff : isSecret v = true ↔ ∃ s, v = .str s ∧ Secret s := by
  cases v <;> simp [isSecret, asText?, looksSecret_iff]

/-! ## The first secret -/

/-- The first secret of the walk. -/
theorem firstSecret?_eq_some_iff {pointer : String} : firstSecret? v = some pointer ↔
    ∃ before path s after, v.leaves = before ++ (path, .str s) :: after ∧
      (∀ l ∈ before, ∀ s', l.2 = .str s' → ¬Secret s') ∧ Secret s ∧ pointer = leafPointer path := by
  have hother : ∀ w : Value, isSecret w = false ↔ ∀ s, w = .str s → ¬Secret s := by
    intro w
    rw [← Bool.not_eq_true, isSecret_iff]
    simp
  simp only [firstSecret?, Option.map_eq_some_iff, List.find?_eq_some_iff_append, isSecret_iff,
    Bool.not_eq_true', hother]
  constructor
  · rintro ⟨⟨path, w⟩, ⟨⟨s, rfl, hs⟩, before, after, hleaves, hbefore⟩, rfl⟩
    exact ⟨before, path, s, after, hleaves, hbefore, hs, rfl⟩
  · rintro ⟨before, path, s, after, hleaves, hbefore, hs, rfl⟩
    exact ⟨(path, .str s), ⟨⟨s, rfl, hs⟩, before, after, hleaves, hbefore⟩, rfl⟩

/-- There is a first secret unless there is none at any depth. -/
theorem firstSecret?_eq_none_iff :
    firstSecret? v = none ↔ ∀ s, Part v (.str s) → ¬Secret s := by
  rw [firstSecret?, Option.map_eq_none_iff, List.find?_eq_none]
  constructor
  · intro h s hpart hs
    obtain ⟨path, hpath⟩ := exists_mem_leaves_iff.2 ⟨hpart, rfl⟩
    exact h (path, .str s) hpath (isSecret_iff.2 ⟨s, rfl, hs⟩)
  · rintro h ⟨path, w⟩ hw hsecret
    obtain ⟨s, rfl, hs⟩ := isSecret_iff.1 hsecret
    exact h s (exists_mem_leaves_iff.1 ⟨path, hw⟩).1 hs

theorem exists_firstSecret?_iff : (∃ pointer, firstSecret? v = some pointer) ↔
    ∃ s, Part v (.str s) ∧ Secret s := by
  rw [← Option.ne_none_iff_exists', Ne, firstSecret?_eq_none_iff]
  push Not
  rfl

/-! ## Values that differ by secrets -/

/-- A secret somewhere in the value is another one. -/
inductive Reworded : Value → Value → Prop
  | text {s s' : String} (h : Secret s) (h' : Secret s') : Reworded (.str s) (.str s')
  | item (front back : List Value) {v w : Value} (h : Reworded v w) :
    Reworded (.arr (front ++ v :: back)) (.arr (front ++ w :: back))
  | member (front back : List (String × Value)) (k : String) {v w : Value} (h : Reworded v w) :
    Reworded (.obj (front ++ (k, v) :: back)) (.obj (front ++ (k, w) :: back))

/-- The values differ by their secrets only. -/
abbrev Rewords : Value → Value → Prop :=
  Relation.ReflTransGen Reworded

/-- The places on a walk, and at which of them there are secrets. -/
def marks (ls : List (List String × Value)) : List (List String × Bool) :=
  ls.map fun l => (l.1, isSecret l.2)

theorem marks_append (ls ls' : List (List String × Value)) :
    marks (ls ++ ls') = marks ls ++ marks ls' :=
  List.map_append

theorem marks_below (k : String) (ls : List (List String × Value)) :
    marks (ls.map fun l => (k :: l.1, l.2)) = (marks ls).map fun l => (k :: l.1, l.2) := by
  simp [marks]

theorem firstSecret?_eq_find? (v : Value) : firstSecret? v =
    ((marks v.leaves).find? Prod.snd).map fun l => leafPointer l.1 := by
  rw [firstSecret?, marks, List.find?_map, Option.map_map]
  rfl

/-- The walks of both values come by secrets in the same places. -/
theorem Reworded.marks_eq (h : Reworded v w) : marks v.leaves = marks w.leaves := by
  induction h with
  | text h h' => simp [leaves, marks, isSecret_iff.2 ⟨_, rfl, h⟩, isSecret_iff.2 ⟨_, rfl, h'⟩]
  | item front back h ih =>
    rw [leaves, leaves, leavesOfItems_append, leavesOfItems_append, leavesOfItems, leavesOfItems]
    simp only [marks_append, marks_below, ih]
  | member front back k h ih =>
    rw [leaves, leaves, leavesOfMembers_append, leavesOfMembers_append, leavesOfMembers,
      leavesOfMembers]
    simp only [marks_append, marks_below, ih]

theorem Rewords.firstSecret?_eq (h : Rewords v w) : firstSecret? v = firstSecret? w := by
  induction h with
  | refl => rfl
  | tail _ hstep ih => rw [ih, firstSecret?_eq_find?, firstSecret?_eq_find?, hstep.marks_eq]

/-! ## Loading -/

variable {documents : List (Option Yaml.Value)} {values : List Value}

theorem ofDocuments_eq_ofValue (h : List.Forall₂ Says documents values) :
    ofDocuments documents = ofValue (mergeAll values) := by
  rw [ofDocuments, layers_eq_ok_iff.2 h]

theorem ofValue_eq_error_iff {e : LoadError} : ofValue v = .error e ↔
    ∃ pointer, firstSecret? v = some pointer ∧ e = .secret pointer := by
  rw [ofValue]
  cases firstSecret? v <;> simp [eq_comm]

theorem ofDocuments_rejects_iff (h : List.Forall₂ Says documents values) :
    (∃ pointer, ofDocuments documents = .error (.secret pointer)) ↔
      ∃ s, Part (mergeAll values) (.str s) ∧ Secret s := by
  rw [← exists_firstSecret?_iff]
  simp [ofDocuments_eq_ofValue h, ofValue_eq_error_iff]

/-- Secret rejection is exact and shows no secret. Layers that are all valid are rejected if and
only if there is a secret in the merged value at some depth, so that no configuration has one. The
error names the place of the first secret of the walk, and is the same for other secrets in the
places of secrets. -/
theorem ofDocuments_secret (h : List.Forall₂ Says documents values) :
    ((∃ pointer, ofDocuments documents = .error (.secret pointer)) ↔
      ∃ s, Part (mergeAll values) (.str s) ∧ Secret s) ∧
    (∀ c, ofDocuments documents = .ok c → ∀ s, Part c.value (.str s) → ¬Secret s) ∧
    (∀ e, ofDocuments documents = .error e → ∃ before path s after,
      (mergeAll values).leaves = before ++ (path, .str s) :: after ∧
      (∀ l ∈ before, ∀ s', l.2 = .str s' → ¬Secret s') ∧ Secret s ∧
      e.message = "CONFIG_SECRET_DETECTED leaf=" ++ leafPointer path ++ " value=REDACTED") ∧
    ∀ {documents' : List (Option Yaml.Value)} {values' : List Value},
      List.Forall₂ Says documents' values' → Rewords (mergeAll values) (mergeAll values') →
      ∀ e, ofDocuments documents = .error e ↔ ofDocuments documents' = .error e := by
  have herror : ∀ e, ofDocuments documents = .error e ↔
      ∃ pointer, firstSecret? (mergeAll values) = some pointer ∧ e = .secret pointer := by
    intro e
    rw [ofDocuments_eq_ofValue h, ofValue_eq_error_iff]
  refine ⟨ofDocuments_rejects_iff h, fun c hc => ?_, fun e he => ?_, ?_⟩
  · obtain ⟨values', hvalues', hnone, hvalue⟩ := ofDocuments_eq_ok_iff.1 hc
    rw [hvalue]
    exact firstSecret?_eq_none_iff.1 hnone
  · obtain ⟨pointer, hpointer, rfl⟩ := (herror e).1 he
    obtain ⟨before, path, s, after, hleaves, hbefore, hs, rfl⟩ :=
      firstSecret?_eq_some_iff.1 hpointer
    exact ⟨before, path, s, after, hleaves, hbefore, hs, rfl⟩
  · intro documents' values' h' hrewords e
    rw [herror, ofDocuments_eq_ofValue h', ofValue_eq_error_iff, hrewords.firstSecret?_eq]

/-- A secret in a list, with blanks around it, and another one in its place. -/
theorem ofDocuments_secret_nested :
    ofDocuments [some (.map [(.str "a", .seq [.null, .str " ghp_0123 "])])] =
        .error (.secret "/a/1") ∧
      ofDocuments [some (.map [(.str "a", .seq [.null, .str "AKIA4567"])])] =
        .error (.secret "/a/1") := by
  have h : List.Forall₂ Says [some (.map [(.str "a", .seq [.null, .str " ghp_0123 "])])]
      [.obj [("a", .arr [.null, .str " ghp_0123 "])]] := .cons ⟨_, rfl, rfl⟩ .nil
  have h' : List.Forall₂ Says [some (.map [(.str "a", .seq [.null, .str "AKIA4567"])])]
      [.obj [("a", .arr [.null, .str "AKIA4567"])]] := .cons ⟨_, rfl, rfl⟩ .nil
  have hs : Secret " ghp_0123 " := looksSecret_iff.1 (by decide)
  have hs' : Secret "AKIA4567" := looksSecret_iff.1 (by decide)
  have hrewords : Rewords (.obj [("a", .arr [.null, .str " ghp_0123 "])])
      (.obj [("a", .arr [.null, .str "AKIA4567"])]) :=
    .single (.member [] [] "a" (.item [.null] [] (.text hs hs')))
  have hfirst : ofDocuments [some (.map [(.str "a", .seq [.null, .str " ghp_0123 "])])] =
      .error (.secret "/a/1") := rfl
  exact ⟨hfirst, ((ofDocuments_secret h).2.2.2 h' hrewords _).1 hfirst⟩

/-! ## Layers with secrets -/

/-- The layers are rejected for a secret in a value that settles its place. -/
theorem ofDocuments_rejects_iff_settles (h : List.Forall₂ Says documents values) :
    (∃ pointer, ofDocuments documents = .error (.secret pointer)) ↔
      ∃ p v s, v.isObject = false ∧ Settles values p v ∧ Part v (.str s) ∧ Secret s := by
  have hordered : ∀ l ∈ values, l.Ordered := of_layers Yaml.Value.converted_ordered h
  rw [ofDocuments_rejects_iff h]
  constructor
  · rintro ⟨s, hpart, hs⟩
    obtain ⟨p, v, hv, hobj, hpart⟩ := (part_iff_at? (ordered_mergeAll h) rfl).1 hpart
    exact ⟨p, v, s, hobj, (at?_mergeAll_iff hordered hobj).1 hv, hpart, hs⟩
  · rintro ⟨p, v, s, hobj, hv, hpart, hs⟩
    have hat := (at?_mergeAll_iff hordered hobj).2 hv
    exact ⟨s, (part_of_at? hat).trans hpart, hs⟩

theorem settles_singleton_iff {l : Value} {p : List String} :
    Settles [l] p v ↔ l.at? p = some v := by
  simpa [not_settles_nil] using @settles_append_iff l v p []

/-- Layers are rejected if and only if a value that settles its place has a secret. So a secret of
one layer gets past only where a later layer has something or cuts the place off, and if the last
layer alone is rejected, so are the layers. -/
theorem ofDocuments_secret_settled (h : List.Forall₂ Says documents values) :
    ((∃ pointer, ofDocuments documents = .error (.secret pointer)) ↔
      ∃ p v s, v.isObject = false ∧ Settles values p v ∧ Part v (.str s) ∧ Secret s) ∧
    ((¬∃ pointer, ofDocuments documents = .error (.secret pointer)) →
      ∀ before l after, values = before ++ l :: after → ∀ p v s, v.isObject = false →
        l.at? p = some v → Part v (.str s) → Secret s →
          ∃ l' ∈ after, l'.at? p ≠ none ∨ l'.Cuts p) ∧
    ∀ below d, documents = below ++ [d] →
      (∃ pointer, ofDocuments [d] = .error (.secret pointer)) →
        ∃ pointer, ofDocuments documents = .error (.secret pointer) := by
  have hrejects := ofDocuments_rejects_iff_settles h
  refine ⟨hrejects, ?_, ?_⟩
  · rintro hpass before l after rfl p v s hobj hv hpart hs
    by_contra hover
    push Not at hover
    exact hpass (hrejects.2 ⟨p, v, s, hobj, ⟨before, l, after, rfl, hv, hover⟩, hpart, hs⟩)
  · rintro below d rfl hd
    have hlast := List.forall₂_drop_append _ _ _ h.flip
    obtain ⟨l, rest, hl, hrest, hdrop⟩ := List.forall₂_cons_right_iff.1 hlast
    obtain rfl := List.forall₂_nil_right_iff.1 hrest
    have hvalues : values = values.take below.length ++ [l] := by
      rw [← hdrop, List.take_append_drop]
    obtain ⟨p, v, s, hobj, hv, hpart, hs⟩ := (ofDocuments_rejects_iff_settles (.cons hl .nil)).1 hd
    refine hrejects.2 ⟨p, v, s, hobj, ?_, hpart, hs⟩
    rw [hvalues, settles_append_iff]
    exact .inl (settles_singleton_iff.1 hv)

/-- A secret of the first layer that the second one leaves alone. -/
theorem ofDocuments_secret_settled_below :
    ∃ pointer, ofDocuments [some (.map [(.str "a", .str "ghp_0123")]),
      some (.map [(.str "b", .null)])] = .error (.secret pointer) := by
  have h : List.Forall₂ Says
      [some (.map [(.str "a", .str "ghp_0123")]), some (.map [(.str "b", .null)])]
      [.obj [("a", .str "ghp_0123")], .obj [("b", .null)]] :=
    .cons ⟨_, rfl, rfl⟩ (.cons ⟨_, rfl, rfl⟩ .nil)
  have hcuts : ¬(Value.obj [("b", .null)]).Cuts ["a"] := by
    simp [cuts_cons_iff, member?, Entries.get?, isObject]
  have hs : Secret "ghp_0123" := looksSecret_iff.1 (by decide)
  refine (ofDocuments_secret_settled h).1.2
    ⟨["a"], .str "ghp_0123", "ghp_0123", rfl, ?_, .refl _, hs⟩
  exact ⟨[], _, [_], rfl, rfl, by simpa using ⟨rfl, hcuts⟩⟩

/-- A secret of the first layer that the second one replaces. -/
theorem ofDocuments_secret_replaced :
    ofDocuments [some (.map [(.str "a", .str "ghp_0123456789abcdefghij")])] =
        .error (.secret "/a") ∧
      ofDocuments [some (.map [(.str "a", .str "ghp_0123456789abcdefghij")]),
        some (.map [(.str "a", .str "b")])] = .ok ⟨.obj [("a", .str "b")]⟩ :=
  ⟨rfl, rfl⟩

end Courier.Config
