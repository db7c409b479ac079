import Courier.Config.Layers
import Courier.Proofs.Yaml.Conversion
import Mathlib.Data.List.Induction

/-!
# What lies where after a merge

The law of one key is `member?_merge` : what a layer has there is merged into what lies
below, and where the layer has nothing the base shows. By recursion on the path it gives
the value at any place (`at?_merge_of_some`, `at?_merge_of_not_cuts`, `at?_merge_of_cuts`).

A value settles a place in a stack of layers (`Settles`) if one layer has it there and no
later layer has anything there or cuts the place off. The values of the merged layers that
are no objects are those that settle their places (`at?_mergeAll_iff`).
-/

namespace Courier

open Json (Value)

namespace Json.Value

/-- The value holds something other than an object at the place or on the way to it. -/
def Cuts (v : Value) (p : List String) : Prop :=
  ∃ q w, q <+: p ∧ v.at? q = some w ∧ w.isObject = false

variable {v w : Value} {k : String} {p : List String}

theorem member?_eq_none_of_isObject (h : v.isObject = false) : v.member? k = none := by
  cases v <;> first | rfl | cases h

theorem cuts_nil_iff : v.Cuts [] ↔ v.isObject = false := by
  constructor
  · rintro ⟨q, w, hq, hw, hobj⟩
    obtain rfl := List.prefix_nil.1 hq
    obtain rfl := Option.some.inj hw
    exact hobj
  · intro h
    exact ⟨[], v, List.prefix_rfl, rfl, h⟩

theorem cuts_cons_iff :
    v.Cuts (k :: p) ↔ v.isObject = false ∨ ∃ w, v.member? k = some w ∧ w.Cuts p := by
  constructor
  · rintro ⟨q, w, hq, hw, hobj⟩
    rcases List.prefix_cons_iff.1 hq with rfl | ⟨q', rfl, hq'⟩
    · obtain rfl := Option.some.inj hw
      exact Or.inl hobj
    · obtain ⟨u, hu, hw'⟩ := Option.bind_eq_some_iff.1 hw
      exact Or.inr ⟨u, hu, q', w, hq', hw', hobj⟩
  · rintro (h | ⟨w, hw, q, u, hq, hu, hobj⟩)
    · exact ⟨[], v, List.nil_prefix, rfl, h⟩
    · refine ⟨k :: q, u, List.cons_prefix_cons.2 ⟨rfl, hq⟩, ?_, hobj⟩
      rw [at?, hw]
      exact hu

/-- What cuts a place off has nothing there, unless it is there itself. -/
theorem isObject_of_cuts (hc : v.Cuts p) (hw : v.at? p = some w) : w.isObject = false := by
  induction p generalizing v with
  | nil =>
    obtain rfl := Option.some.inj hw
    exact cuts_nil_iff.1 hc
  | cons k p ih =>
    obtain ⟨u, hu, huw⟩ := Option.bind_eq_some_iff.1 hw
    rcases cuts_cons_iff.1 hc with h | ⟨u', hu', hcu⟩
    · rw [member?_eq_none_of_isObject h] at hu
      cases hu
    · obtain rfl := Option.some.inj (hu.symm.trans hu')
      exact ih hcu huw

end Json.Value

namespace Config

open Json.Value

variable {base layer v : Value} {k : String} {p : List String}

/-! ## One key -/

/-- Null below is like nothing below. -/
theorem merge_null (v : Value) : merge .null v = v := by
  cases v <;> rfl

theorem merge_of_isObject (h : layer.isObject = false) : merge base layer = layer := by
  cases layer <;> first | rfl | cases h

theorem isObject_merge : (merge base layer).isObject = layer.isObject := by
  cases layer <;> first | rfl | (cases base <;> rfl)

theorem mergeMembers_cons {below rest : List (String × Value)} :
    mergeMembers below ((k, v) :: rest) =
      mergeMembers (Entries.insert k (merge ((Entries.get? k below).getD .null) v) below) rest := by
  rw [mergeMembers]
  cases Entries.get? k below with
  | some b => rfl
  | none => rw [Option.getD_none, merge_null]

theorem get?_mergeMembers {below ms : List (String × Value)} (h : Entries.Ordered ms) :
    Entries.get? k (mergeMembers below ms) =
      match Entries.get? k ms with
      | some v => some (merge ((Entries.get? k below).getD .null) v)
      | none => Entries.get? k below := by
  induction ms generalizing below with
  | nil => rfl
  | cons m rest ih =>
    obtain ⟨k', v'⟩ := m
    rw [mergeMembers_cons, ih (List.pairwise_cons.1 h).2, Entries.get?, Entries.get?_insert]
    by_cases hk : k' = k
    · subst hk
      have hnone : Entries.get? k' rest = none := by
        cases hr : Entries.get? k' rest with
        | none => rfl
        | some v => exact absurd rfl (Entries.get?_of_ordered_cons h hr)
      rw [hnone, if_pos rfl, if_pos rfl]
    · rw [if_neg hk, if_neg hk]

/-- What a layer has under a key is merged into what lies below. -/
theorem member?_merge {ms : List (String × Value)} (h : (Value.obj ms).Ordered) :
    (merge base (.obj ms)).member? k =
      match Entries.get? k ms with
      | some v => some (merge ((base.member? k).getD .null) v)
      | none => base.member? k := by
  cases base with
  | obj below => exact get?_mergeMembers (ordered_obj_iff.1 h).1
  | _ =>
    show Entries.get? k ms = _
    cases Entries.get? k ms with
    | none => rfl
    | some v => exact congrArg some (merge_null v).symm

/-! ## One place -/

theorem getD_null_at? (b : Option Value) (p : List String) :
    ((b.getD .null).at? p).getD .null = (b.bind (at? p)).getD .null := by
  cases b with
  | some v => rfl
  | none => cases p <;> rfl

/-- Where a layer has a value, this is merged into what the base has there. -/
theorem at?_merge_of_some (h : layer.Ordered) (hv : layer.at? p = some v) :
    (merge base layer).at? p = some (merge ((base.at? p).getD .null) v) := by
  induction p generalizing base layer with
  | nil =>
    obtain rfl := Option.some.inj hv
    rfl
  | cons k p ih =>
    obtain ⟨u, hu, hu'⟩ := Option.bind_eq_some_iff.1 hv
    cases layer with
    | obj ms =>
      have hmember : (merge base (.obj ms)).member? k =
          some (merge ((base.member? k).getD .null) u) := by
        have hget : Entries.get? k ms = some u := hu
        rw [member?_merge h, hget]
      rw [at?, hmember, Option.bind_some, ih (h.of_get? hu) hu', getD_null_at?]
      rfl
    | _ => cases hu

/-- Where a layer has nothing and does not cut the place off, the base shows. -/
theorem at?_merge_of_not_cuts (h : layer.Ordered) (hv : layer.at? p = none)
    (hc : ¬layer.Cuts p) : (merge base layer).at? p = base.at? p := by
  induction p generalizing base layer with
  | nil => cases hv
  | cons k p ih =>
    rw [cuts_cons_iff, not_or, Bool.not_eq_false] at hc
    obtain ⟨hobj, hc⟩ := hc
    cases layer with
    | obj ms =>
      rw [at?, member?_merge h, at?]
      cases hk : Entries.get? k ms with
      | none => rfl
      | some u =>
        have hu : u.at? p = none := by
          rw [at?, show (Value.obj ms).member? k = some u from hk] at hv
          exact hv
        dsimp only
        rw [Option.bind_some, ih (h.of_get? hk) hu fun hcu => hc ⟨u, hk, hcu⟩]
        -- Something lies at `p` in every value if `p` is empty, so `p` goes on here.
        cases p with
        | nil => cases hu
        | cons k' p => cases base.member? k <;> rfl
    | _ => cases hobj

/-- Where a layer cuts a place off nothing of the base shows. -/
theorem at?_merge_of_cuts (h : layer.Ordered) (hc : layer.Cuts p) :
    (merge base layer).at? p = layer.at? p := by
  cases hv : layer.at? p with
  | some v => rw [at?_merge_of_some h hv, merge_of_isObject (isObject_of_cuts hc hv)]
  | none =>
    induction p generalizing base layer with
    | nil => cases hv
    | cons k p ih =>
      rcases cuts_cons_iff.1 hc with hobj | ⟨u, hu, hcu⟩
      · rw [merge_of_isObject hobj, hv]
      · cases layer with
        | obj ms =>
          have hget : Entries.get? k ms = some u := hu
          rw [at?, hu] at hv
          rw [at?, member?_merge h, hget]
          exact ih (h.of_get? hget) hcu hv
        | _ => cases hu

/-- Merged objects have the keys of both. -/
theorem mem_keys_mergeMembers {below ms : List (String × Value)} :
    k ∈ (mergeMembers below ms).map Prod.fst ↔
      k ∈ ms.map Prod.fst ∨ k ∈ below.map Prod.fst := by
  induction ms generalizing below with
  | nil => simp [mergeMembers]
  | cons m rest ih =>
    obtain ⟨k', v'⟩ := m
    rw [mergeMembers_cons, ih, Entries.mem_keys_insert]
    simp only [List.map_cons, List.mem_cons]
    tauto

/-- Where a layer has an object, there is one with the keys of both. -/
theorem at?_merge_of_obj {ms : List (String × Value)} (h : layer.Ordered)
    (hv : layer.at? p = some (.obj ms)) :
    ∃ ns, (merge base layer).at? p = some (.obj ns) ∧
      ∀ k, k ∈ ns.map Prod.fst ↔ k ∈ ms.map Prod.fst ∨
        ∃ bs, base.at? p = some (.obj bs) ∧ k ∈ bs.map Prod.fst := by
  rw [at?_merge_of_some h hv]
  cases hb : base.at? p with
  | none => exact ⟨ms, rfl, by simp⟩
  | some b =>
    cases b with
    | obj bs => exact ⟨mergeMembers bs ms, rfl, fun k => by simp [mem_keys_mergeMembers]⟩
    | _ => exact ⟨ms, rfl, by simp⟩

mutual

/-- A merge has what its parts hand on. -/
theorem of_merge {P : Value → Prop} (hP : Hereditary P) :
    ∀ (layer : Value) {base : Value}, P base → P layer → P (merge base layer)
  | .obj ms, base, hb, hl => by
    cases base with
    | obj below => exact of_mergeMembers hP ms hb fun _ => hP.member hl
    | _ => exact hl
  | .null, _, _, hl | .bool _, _, _, hl | .num _, _, _, hl | .str _, _, _, hl
  | .arr _, _, _, hl => hl

theorem of_mergeMembers {P : Value → Prop} (hP : Hereditary P) :
    ∀ (ms : List (String × Value)) {below : List (String × Value)}, P (.obj below) →
      (∀ m ∈ ms, P m.2) → P (.obj (mergeMembers below ms))
  | [], _, hb, _ => hb
  | (k, v) :: rest, below, hb, hm => by
    obtain ⟨hv, hrest⟩ := List.forall_mem_cons.1 hm
    rw [mergeMembers]
    refine of_mergeMembers hP rest (hP.insert hb ?_) hrest
    cases hk : Entries.get? k below with
    | none => exact hv
    | some b => exact of_merge hP v (hP.member hb (Entries.mem_of_get? hk)) hv

end

/-! ## A stack of layers -/

/-- The value is at the place in one layer, and no later layer has anything there or cuts
the place off. -/
def Settles (layers : List Value) (p : List String) (v : Value) : Prop :=
  ∃ before l after, layers = before ++ l :: after ∧ l.at? p = some v ∧
    ∀ l' ∈ after, l'.at? p = none ∧ ¬l'.Cuts p

theorem not_settles_nil : ¬Settles [] p v := by
  rintro ⟨before, l, after, h, -⟩
  simp at h

/-- A further layer settles a place, or leaves it as it was settled. -/
theorem settles_append_iff {layers : List Value} : Settles (layers ++ [layer]) p v ↔
    layer.at? p = some v ∨ (layer.at? p = none ∧ ¬layer.Cuts p) ∧ Settles layers p v := by
  constructor
  · rintro ⟨before, l, after, h, hl, hafter⟩
    rcases List.eq_nil_or_concat after with rfl | ⟨after, l', rfl⟩
    · obtain ⟨-, hlast⟩ := List.append_inj' h rfl
      obtain rfl := List.singleton_inj.1 hlast
      exact Or.inl hl
    · have h' : layers ++ [layer] = (before ++ l :: after) ++ [l'] := by simpa using h
      obtain ⟨rfl, hlast⟩ := List.append_inj' h' rfl
      obtain rfl := List.singleton_inj.1 hlast
      exact Or.inr ⟨hafter layer (by simp), before, l, after, rfl, hl,
        fun l' hl' => hafter l' (by simp [hl'])⟩
  · rintro (h | ⟨hn, before, l, after, rfl, hl, hafter⟩)
    · exact ⟨layers, layer, [], rfl, h, by simp⟩
    · refine ⟨before, l, after ++ [layer], by simp, hl, fun l' hl' => ?_⟩
      rcases List.mem_append.1 hl' with hl' | hl'
      · exact hafter l' hl'
      · obtain rfl := List.mem_singleton.1 hl'
        exact hn

theorem mergeAll_append (layers : List Value) (layer : Value) :
    mergeAll (layers ++ [layer]) = merge (mergeAll layers) layer := by
  rw [mergeAll, List.foldl_append]
  rfl

/-- The values of merged layers that are no objects are those that settle their places. -/
theorem at?_mergeAll_iff {layers : List Value} (h : ∀ l ∈ layers, l.Ordered)
    (hv : v.isObject = false) : (mergeAll layers).at? p = some v ↔ Settles layers p v := by
  induction layers using List.reverseRecOn with
  | nil =>
    refine iff_of_false (fun hat => ?_) not_settles_nil
    cases p with
    | nil =>
      obtain rfl := Option.some.inj hat
      cases hv
    | cons k p => cases hat
  | append_singleton layers layer ih =>
    have hlayer : layer.Ordered := h layer (by simp)
    rw [mergeAll_append, settles_append_iff]
    cases hl : layer.at? p with
    | some w =>
      rw [at?_merge_of_some hlayer hl]
      simp only [Option.some.injEq, reduceCtorEq, false_and, or_false]
      -- An object of the layer stays one, and anything else stays what it is.
      constructor
      · rintro rfl
        rw [isObject_merge] at hv
        exact (merge_of_isObject hv).symm
      · rintro rfl
        exact merge_of_isObject hv
    | none =>
      by_cases hc : layer.Cuts p
      · rw [at?_merge_of_cuts hlayer hc, hl]
        simp [hc]
      · rw [at?_merge_of_not_cuts hlayer hl hc, ih fun l hl' => h l (by simp [hl'])]
        simp [hc]

end Config

end Courier
