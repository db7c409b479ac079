import Courier.Proofs.Config.Algebra
import Courier.Proofs.Config.Load
import Courier.Proofs.Yaml.Embedding

/-!
# One configuration from several lists of layers

A load goes through its layers in order, the first that is not valid ends it, and of valid ones only
the merged value counts (`ofDocuments_append`). So the laws of merging are laws of
loading : neighbours that share nothing but objects can be swapped anywhere in the list
(`layers_commute`), a leading run can be replaced by one layer that says what it comes to, and the
last layer can be given twice (`layers_regroup`).
-/

namespace Courier.Config

open Json (Value)
open Json.Value

variable {front rest before after documents : List (Option Yaml.Value)} {d d' : Option Yaml.Value}
  {values : List Value} {a b v : Value}

/-! ## Layers one after the other -/

theorem layers_cons (h : Says d v) (i : Nat) (rest : List (Option Yaml.Value)) :
    layers i (d :: rest) = (layers (i + 1) rest).map (v :: ·) := by
  rw [layers, layer_eq_ok_iff.2 h]

theorem layers_append (i : Nat) (front rest : List (Option Yaml.Value)) :
    layers i (front ++ rest) = (layers i front).bind fun vs =>
      (layers (i + front.length) rest).map (vs ++ ·) := by
  induction front generalizing i with
  | nil =>
    rw [List.nil_append, layers, List.length_nil, Nat.add_zero]
    cases layers i rest <;> rfl
  | cons d front ih =>
    rw [List.cons_append, layers, layers, ih (i + 1), List.length_cons, Nat.add_right_comm,
      Nat.add_assoc]
    cases layer i d with
    | error e => rfl
    | ok v =>
      dsimp only
      cases layers (i + 1) front with
      | error e => rfl
      | ok vs => cases layers (i + (front.length + 1)) rest <;> rfl

/-- Of valid layers only the merged value counts. -/
theorem ofDocuments_append (front rest : List (Option Yaml.Value)) :
    ofDocuments (front ++ rest) = (layers 0 front).bind fun vs =>
      (layers front.length rest).bind fun ws => ofValue (mergeAll (vs ++ ws)) := by
  rw [ofDocuments, layers_append, Nat.zero_add]
  cases layers 0 front with
  | error e => rfl
  | ok vs => cases layers front.length rest <;> rfl

theorem layers_ne_secret {i : Nat} {e : LoadError} (h : layers i documents = .error e)
    (pointer : String) : e ≠ .secret pointer := by
  rintro rfl
  induction documents generalizing i with
  | nil => cases h
  | cons d documents ih =>
    rw [layers] at h
    cases hd : layer i d with
    | error e =>
      rw [hd] at h
      obtain rfl := Except.error.inj h
      unfold layer at hd
      split at hd
      · cases hd
      · split at hd <;> cases hd
    | ok v =>
      rw [hd] at h
      cases hrest : layers (i + 1) documents with
      | error e =>
        rw [hrest] at h
        obtain rfl := Except.error.inj h
        exact ih hrest
      | ok vs =>
        rw [hrest] at h
        cases h

theorem Says.ordered (h : Says d v) : v.Ordered := by
  obtain ⟨y, -, hy⟩ := h
  exact Yaml.Value.of_toJson? Yaml.Value.converted_ordered y hy

/-! ## Neighbours swapped -/

theorem mergeAll_swap {vs ws : List Value} (hvs : ∀ v ∈ vs, v.Ordered) (ha : a.Ordered)
    (hb : b.Ordered) (h : Independent a b) :
    mergeAll (vs ++ a :: b :: ws) = mergeAll (vs ++ b :: a :: ws) := by
  have hbase : (mergeAll vs).Ordered :=
    of_mergeAll hereditary_ordered Yaml.Value.converted_ordered.empty hvs
  have hsplit : ∀ v w, mergeAll (vs ++ v :: w :: ws) =
      ws.foldl merge (merge (merge (mergeAll vs) v) w) := fun v w => List.foldl_append
  rw [hsplit, hsplit, merge_comm hbase ha hb h]

theorem ofDocuments_swap (h : Says d a) (h' : Says d' b) (hi : Independent a b) :
    ofDocuments (before ++ d :: d' :: after) = ofDocuments (before ++ d' :: d :: after) := by
  rw [ofDocuments_append, ofDocuments_append]
  cases hvs : layers 0 before with
  | error e => rfl
  | ok vs =>
    have hordered := of_layers Yaml.Value.converted_ordered (layers_eq_ok_iff.1 hvs)
    simp only [Except.bind, layers_cons h, layers_cons h']
    cases layers (before.length + 1 + 1) after with
    | error e => rfl
    | ok ws => exact congrArg ofValue (mergeAll_swap hordered h.ordered h'.ordered hi)

/-- Independent layers commute. If two layers have objects in every place that both have, any base
with one and then the other merged into it is the same in either order; so the two can change
places in any list of layers where they are neighbours, and the same configuration is loaded, with
its text and digest, or loading fails alike. -/
theorem layers_commute :
    (∀ base a b : Value, base.Ordered → a.Ordered → b.Ordered → Independent a b →
      merge (merge base a) b = merge (merge base b) a) ∧
    ∀ (before after : List (Option Yaml.Value)) (d d' : Option Yaml.Value) (a b : Value),
      Says d a → Says d' b → Independent a b →
        ofDocuments (before ++ d :: d' :: after) = ofDocuments (before ++ d' :: d :: after) :=
  ⟨fun _ _ _ hbase ha hb h => merge_comm hbase ha hb h,
    fun _ _ _ _ _ _ h h' hi => ofDocuments_swap h h' hi⟩

/-- Two layers that both open an object in the place of a number below. -/
theorem layers_commute_nested :
    let base : Value := .obj [("p", .num (.int 1))]
    let a : Value := .obj [("p", .obj [("x", .null)]), ("q", .arr [])]
    let b : Value := .obj [("p", .obj [("y", .bool true)])]
    let below : Yaml.Value := .map [(.str "p", .int 1)]
    let left : Yaml.Value := .map [(.str "q", .seq []), (.str "p", .map [(.str "x", .null)])]
    let right : Yaml.Value := .map [(.str "p", .map [(.str "y", .bool true)])]
    merge (merge base a) b = merge (merge base b) a ∧
      ofDocuments ([some below] ++ some left :: some right :: [none]) =
        ofDocuments ([some below] ++ some right :: some left :: [none]) := by
  intro base a b below left right
  have hbase : base.Ordered := ⟨by decide, trivial, trivial⟩
  have ha : a.Ordered := ⟨by decide, ⟨by decide, trivial, trivial⟩, trivial, trivial⟩
  have hb : b.Ordered := ⟨by decide, ⟨by decide, trivial, trivial⟩, trivial⟩
  have h : Independent a b := by
    refine independent_singleton rfl fun p hp => ?_
    obtain rfl := Option.some.inj hp
    exact independent_singleton rfl fun y hy => by cases hy
  obtain ⟨hmerge, hload⟩ := layers_commute
  exact ⟨hmerge base a b hbase ha hb h,
    hload [some below] [none] (some left) (some right) a b ⟨left, rfl, rfl⟩ ⟨right, rfl, rfl⟩ h⟩

/-! ## Layers regrouped -/

/-- A layer that says what the layers before come to takes their place. -/
theorem mergeAll_regroup {vs ws : List Value} (h : ∀ v ∈ vs, v.Ordered) :
    mergeAll (mergeAll vs :: ws) = mergeAll (vs ++ ws) := by
  have hvs : (mergeAll vs).Ordered :=
    of_mergeAll hereditary_ordered Yaml.Value.converted_ordered.empty h
  rw [mergeAll, List.foldl_cons, merge_empty hvs, mergeAll, mergeAll, List.foldl_append]

/-- A layer that is merged once more changes nothing. -/
theorem merge_merge_self (ha : a.Ordered) (hb : b.Ordered) : merge (merge a b) b = merge a b := by
  rw [merge_assoc ha hb hb (not_reopens_self b), merge_self hb]

theorem ofDocuments_repeat (documents : List (Option Yaml.Value)) (d : Option Yaml.Value) :
    ofDocuments (documents ++ [d, d]) = ofDocuments (documents ++ [d]) := by
  rw [ofDocuments_append, ofDocuments_append]
  cases hvs : layers 0 documents with
  | error e => rfl
  | ok vs =>
    have hvs := of_layers Yaml.Value.converted_ordered (layers_eq_ok_iff.1 hvs)
    have hbase : (mergeAll vs).Ordered :=
      of_mergeAll hereditary_ordered Yaml.Value.converted_ordered.empty hvs
    cases hd : layer documents.length d with
    | error e => simp only [layers, hd, Except.bind]
    | ok v =>
      have hsays := layer_eq_ok_iff.1 hd
      have htwice : mergeAll (vs ++ [v, v]) = mergeAll (vs ++ [v]) :=
        calc mergeAll (vs ++ [v, v])
          _ = mergeAll (vs ++ [v] ++ [v]) := by rw [List.append_assoc, List.singleton_append]
          _ = merge (merge (mergeAll vs) v) v := by rw [mergeAll_append, mergeAll_append]
          _ = merge (mergeAll vs) v := merge_merge_self hbase hsays.ordered
          _ = mergeAll (vs ++ [v]) := (mergeAll_append vs v).symm
      have hone : List.Forall₂ Says [d] [v] := .cons hsays .nil
      simp only [layers_eq_ok_iff.2 hone, layers_eq_ok_iff.2 (.cons hsays hone), Except.bind,
        htwice]

/-- Layers are told from the one layer that says what they come to by neither the configuration
that is loaded nor the secret that keeps it from being so. -/
theorem ofDocuments_regroup (h : List.Forall₂ Says front values) (hd : Says d (mergeAll values)) :
    (∀ c, ofDocuments (front ++ rest) = .ok c ↔ ofDocuments (d :: rest) = .ok c) ∧
    ∀ pointer, ofDocuments (front ++ rest) = .error (.secret pointer) ↔
      ofDocuments (d :: rest) = .error (.secret pointer) := by
  have hvalues := of_layers Yaml.Value.converted_ordered h
  have hone : List.Forall₂ Says [d] [mergeAll values] := .cons hd .nil
  rw [ofDocuments_append, ← List.singleton_append, ofDocuments_append, layers_eq_ok_iff.2 h,
    layers_eq_ok_iff.2 hone]
  simp only [Except.bind, List.singleton_append, mergeAll_regroup hvalues]
  cases hrest : layers front.length rest with
  | ok ws =>
    have hrest' : layers [d].length rest = .ok ws := layers_eq_ok_iff.2 (layers_eq_ok_iff.1 hrest)
    simp only [hrest', implies_true, and_self]
  | error e =>
    cases hrest' : layers [d].length rest with
    | ok ws => cases hrest.symm.trans (layers_eq_ok_iff.2 (layers_eq_ok_iff.1 hrest'))
    | error e' => simp [layers_ne_secret hrest, layers_ne_secret hrest']

/-- There is a layer that says what layers come to. -/
theorem exists_says_mergeAll (h : List.Forall₂ Says front values) : ∃ d, Says d (mergeAll values) :=
  have hfinite : (mergeAll values).Finite :=
    of_mergeAll hereditary_finite Yaml.Value.converted_finite.empty
      (of_layers Yaml.Value.converted_finite h)
  ⟨some (.ofJson (mergeAll values)), _, rfl,
    Yaml.Value.toJson?_ofJson (ordered_mergeAll h) hfinite⟩

/-- What is loaded follows the effective value and not its split into layers. There is a layer that
says what a leading run of layers comes to, and any such layer can take the place of the run; and
the last layer can be given twice. Of three values the upper two can be merged first, whatever the
lowest one is, exactly if nowhere the middle one has something that is no object and the topmost an
object. -/
theorem layers_regroup :
    (∀ (front : List (Option Yaml.Value)) (values : List Value), List.Forall₂ Says front values →
      (∃ d, Says d (mergeAll values)) ∧ ∀ d, Says d (mergeAll values) → ∀ rest,
        (∀ c, ofDocuments (front ++ rest) = .ok c ↔ ofDocuments (d :: rest) = .ok c) ∧
        ∀ pointer, ofDocuments (front ++ rest) = .error (.secret pointer) ↔
          ofDocuments (d :: rest) = .error (.secret pointer)) ∧
    (∀ documents d, ofDocuments (documents ++ [d, d]) = ofDocuments (documents ++ [d])) ∧
    ∀ b c : Value, b.Ordered → c.Ordered →
      ((∀ a : Value, a.Ordered → merge (merge a b) c = merge a (merge b c)) ↔
        ¬Reopens b c) :=
  ⟨fun _ _ h => ⟨exists_says_mergeAll h, fun _ hd _ => ofDocuments_regroup h hd⟩,
    ofDocuments_repeat, fun _ _ hb hc => merge_assoc_iff hb hc⟩

/-- Two layers in one, with a third one above that is given twice; and of three values the upper two
merged first, though both of them and the lowest have objects in one place. -/
theorem layers_regroup_pair :
    let one : Yaml.Value := .map [(.str "p", .int 1), (.str "q", .null)]
    let two : Yaml.Value := .map [(.str "p", .map [(.str "x", .null)])]
    let both : Yaml.Value := .map [(.str "q", .null), (.str "p", .map [(.str "x", .null)])]
    let above : Yaml.Value := .map [(.str "q", .map [(.str "z", .str "s")])]
    let a : Value := .obj [("p", .obj [("x", .null)]), ("q", .null)]
    let b : Value := .obj [("p", .obj [("y", .null)])]
    let c : Value := .obj [("p", .obj [("x", .arr []), ("y", .null)])]
    (∃ config, ofDocuments [some both, some above] = .ok config ∧
      ofDocuments [some one, some two, some above, some above] = .ok config) ∧
      merge (merge a b) c = merge a (merge b c) := by
  intro one two both above a b c
  obtain ⟨hrun, htwice, hassoc⟩ := layers_regroup
  have hsays : List.Forall₂ Says [some one, some two] [.obj [("p", .num (.int 1)), ("q", .null)],
      .obj [("p", .obj [("x", .null)])]] := .cons ⟨one, rfl, rfl⟩ (.cons ⟨two, rfl, rfl⟩ .nil)
  have ha : a.Ordered := ⟨by decide, ⟨by decide, trivial, trivial⟩, trivial, trivial⟩
  have hb : b.Ordered := ⟨by decide, ⟨by decide, trivial, trivial⟩, trivial⟩
  have hc : c.Ordered := ⟨by decide, ⟨by decide, trivial, trivial, trivial⟩, trivial⟩
  have hreopens : ¬Reopens b c := by
    intro h
    obtain ⟨p, hp, h⟩ := h.of_singleton
    obtain rfl := Option.some.inj hp
    obtain ⟨y, hy, h⟩ := h.of_singleton
    obtain rfl := Option.some.inj hy
    exact not_reopens_self _ h
  refine ⟨⟨_, rfl, ?_⟩, (hassoc b c hb hc).2 hreopens a ha⟩
  rw [show [some one, some two, some above, some above] =
    [some one, some two] ++ [some above, some above] by rfl, htwice [some one, some two]]
  exact ((hrun _ _ hsays).2 (some both) ⟨both, rfl, rfl⟩ [some above]).1 _ |>.2 rfl

end Courier.Config
