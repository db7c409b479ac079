import Courier.Json.Record
import Courier.Proofs.Json.Grammar
import Mathlib.Tactic.Choose

/-!
# What a record takes from an object or an array

`Layout r` describes a record field by field : what is read for a field, where a draft keeps it
and what the record has there. A draft then keeps what stands under the name of each field
(`members_eq_ok_iff`), and the record that is read off an object has in each field what stands
under its name, once, or what the field has if it is left out (`decode_object_iff`).

So neither the order of the members matters nor what other members there are
(`decode_object_perm`). An array is read as the object with its items under the names of the
fields (`decode_array_iff`).
-/

namespace Courier.Json

/-! ## Members under a name -/

/-- The trees that stand under a name, in their order. -/
def under (name : String) (ms : List (String × Tree)) : List Tree :=
  (ms.filter fun m => m.1 == name).map Prod.snd

variable {name : String} {ms ms' : List (String × Tree)}

theorem under_cons_self (t : Tree) (ms : List (String × Tree)) :
    under name ((name, t) :: ms) = t :: under name ms := by
  simp [under]

theorem under_cons_of_ne {k : String} (h : k ≠ name) (t : Tree) (ms : List (String × Tree)) :
    under name ((k, t) :: ms) = under name ms := by
  simp [under, h]

theorem under_append (name : String) (ms ms' : List (String × Tree)) :
    under name (ms ++ ms') = under name ms ++ under name ms' := by
  simp [under]

theorem under_eq_nil (h : ∀ m ∈ ms, m.1 ≠ name) : under name ms = [] := by
  simpa [under] using fun k t hm => h (k, t) hm

theorem under_perm (name : String) (h : ms.Perm ms') :
    (under name ms).Perm (under name ms') :=
  (h.filter _).map _

theorem under_eq_nil_of_perm (h : (under name ms').Perm (under name ms)) :
    under name ms' = [] ↔ under name ms = [] :=
  ⟨fun hnil => (hnil ▸ h).symm.eq_nil, fun hnil => (hnil ▸ h).eq_nil⟩

theorem under_eq_singleton_of_perm (h : (under name ms').Perm (under name ms)) (t : Tree) :
    under name ms' = [t] ↔ under name ms = [t] :=
  ⟨fun ht => (ht ▸ h).symm.eq_singleton, fun ht => (ht ▸ h).eq_singleton⟩

theorem mem_of_mem_under {t : Tree} (h : t ∈ under name ms) : (name, t) ∈ ms := by
  obtain ⟨⟨k, u⟩, hm, rfl⟩ := List.mem_map.1 h
  obtain ⟨hmem, hk⟩ := List.mem_filter.1 hm
  obtain rfl : k = name := by simpa using hk
  exact hmem

/-- What stands under a name in a text is a text by itself. -/
theorem Spells.under {t : Tree} {cs : List Char} (h : Spells (.object ms) cs)
    (ht : t ∈ under name ms) : ∃ cs', Spells t cs' :=
  h.member (mem_of_mem_under ht)

/-! ## What members say under a name -/

variable {α : Type} {d : Decoder α} {default? : Option α}

/-- What the members say under a name : what the one tree there holds, or what is taken if there
is none. -/
def Says (name : String) (ms : List (String × Tree)) (d : Decoder α) (default? : Option α)
    (v : α) : Prop :=
  (under name ms = [] ∧ default? = some v) ∨ ∃ t, under name ms = [t] ∧ d t = .ok v

variable {β : Type} {g : β → Tree} {p : β → Prop} {v v₀ : α}

theorem says_none_iff (h : ∀ t, d t = .ok v ↔ ∃ x, t = g x ∧ p x) :
    Says name ms d none v ↔ ∃ x, under name ms = [g x] ∧ p x := by
  constructor
  · rintro (⟨-, h₀⟩ | ⟨t, ht, hv⟩)
    · cases h₀
    · obtain ⟨x, rfl, hx⟩ := (h t).1 hv
      exact ⟨x, ht, hx⟩
  · rintro ⟨x, ht, hx⟩
    exact .inr ⟨g x, ht, (h (g x)).2 ⟨x, rfl, hx⟩⟩

theorem says_some_iff (h : ∀ t, d t = .ok v ↔ ∃ x, t = g x ∧ p x) :
    Says name ms d (some v₀) v ↔
      (under name ms = [] ∧ v = v₀) ∨ ∃ x, under name ms = [g x] ∧ p x := by
  rw [← says_none_iff h]
  simp [Says, eq_comm (a := v)]

/-- For a decoder that takes `null` for what is missing it makes no difference which it is. -/
theorem says_null_iff (h : ∀ t, d t = .ok v ↔ (t = .null ∧ v = v₀) ∨ ∃ x, t = g x ∧ p x) :
    Says name ms d (some v₀) v ↔ ((under name ms = [] ∨ under name ms = [.null]) ∧ v = v₀) ∨
      ∃ x, under name ms = [g x] ∧ p x := by
  constructor
  · rintro (⟨hnil, h₀⟩ | ⟨t, ht, hv⟩)
    · exact .inl ⟨.inl hnil, (Option.some.inj h₀).symm⟩
    · rcases (h t).1 hv with ⟨rfl, rfl⟩ | ⟨x, rfl, hx⟩
      · exact .inl ⟨.inr ht, rfl⟩
      · exact .inr ⟨x, ht, hx⟩
  · rintro (⟨hnil | hnull, rfl⟩ | ⟨x, ht, hx⟩)
    · exact .inl ⟨hnil, rfl⟩
    · exact .inr ⟨.null, hnull, (h .null).2 (.inl ⟨rfl, rfl⟩)⟩
    · exact .inr ⟨g x, ht, (h (g x)).2 (.inr ⟨x, rfl, hx⟩)⟩

theorem Says.length_le (h : Says name ms d default? v) : (under name ms).length ≤ 1 := by
  rcases h with ⟨hnil, -⟩ | ⟨t, ht, -⟩
  · simp [hnil]
  · simp [ht]

/-- What has to be there is there once. -/
theorem exists_says_none_iff : (∃ v, Says name ms d none v) ↔
    (under name ms).length ≤ 1 ∧ ∃ t ∈ under name ms, ∃ v, d t = .ok v := by
  constructor
  · rintro ⟨v, h⟩
    refine ⟨h.length_le, ?_⟩
    rcases h with ⟨-, h₀⟩ | ⟨t, ht, hv⟩
    · cases h₀
    · exact ⟨t, by simp [ht], v, hv⟩
  · rintro ⟨hlen, t, ht, v, hv⟩
    refine ⟨v, .inr ⟨t, ?_, hv⟩⟩
    rcases hunder : under name ms with _ | ⟨u, _ | ⟨w, us⟩⟩
    · simp [hunder] at ht
    · simpa [hunder, eq_comm] using ht
    · simp [hunder] at hlen

/-- What may be left out is there once or not at all. -/
theorem exists_says_some_iff : (∃ v, Says name ms d (some v₀) v) ↔
    (under name ms).length ≤ 1 ∧ ∀ t ∈ under name ms, ∃ v, d t = .ok v := by
  constructor
  · rintro ⟨v, h⟩
    refine ⟨h.length_le, ?_⟩
    rcases h with ⟨hnil, -⟩ | ⟨t, ht, hv⟩
    · simp [hnil]
    · simpa [ht] using ⟨v, hv⟩
  · rintro ⟨hlen, h⟩
    rcases hunder : under name ms with _ | ⟨t, _ | ⟨w, us⟩⟩
    · exact ⟨v₀, .inl ⟨hunder, rfl⟩⟩
    · obtain ⟨v, hv⟩ := h t (by simp [hunder])
      exact ⟨v, .inr ⟨t, hunder, hv⟩⟩
    · simp [hunder] at hlen

namespace Record

/-! ## Layouts -/

/-- A record field by field. -/
structure Layout {φ δ α : Type} (r : Record φ δ α) where
  /-- What a field holds. -/
  Held : φ → Type
  /-- What is read for a field. -/
  read : (f : φ) → Decoder (Held f)
  /-- What a draft keeps for a field. -/
  get : (f : φ) → δ → Option (Held f)
  /-- A draft with a field. -/
  set : (f : φ) → Held f → δ → δ
  /-- The draft that keeps the given for each field. -/
  make : ((f : φ) → Option (Held f)) → δ
  /-- What a field of the record is if it is left out, and may be. -/
  default? : (f : φ) → Option (Held f)
  /-- A field of the record. -/
  part : (f : φ) → α → Held f
  field?_label : ∀ f, r.field? (r.label f) = some f
  fill_eq : ∀ f t d, r.fill f t d = (read f t).map fun v => set f v d
  filled_eq : ∀ f d, r.filled f d = (get f d).isSome
  get_blank : ∀ f, get f r.blank = none
  get_set : ∀ f v d, get f (set f v d) = some v
  get_set_of_ne : ∀ f g v d, f ≠ g → get g (set f v d) = get g d
  get_make : ∀ vs f, get f (make vs) = vs f
  make_get : ∀ d, make (fun f => get f d) = d
  finish_eq_ok_iff : ∀ d a,
    r.finish d = .ok a ↔ ∀ f, (get f d).or (default? f) = some (part f a)

namespace Layout

variable {φ δ α : Type} {r : Record φ δ α} (L : r.Layout)

theorem ext {d d' : δ} (h : ∀ f, L.get f d = L.get f d') : d = d' := by
  rw [← L.make_get d, ← L.make_get d', funext h]

include L in
theorem label_injective {f g : φ} (h : r.label f = r.label g) : f = g := by
  have hf := L.field?_label f
  rw [h, L.field?_label] at hf
  exact (Option.some.inj hf).symm

theorem label_of_field? {k : String} {f : φ} (h : r.field? k = some f) : r.label f = k := by
  simpa using List.find?_some h

/-- What a draft keeps for a field after the members, given what it kept before : the same if
nothing stands under the name of the field, and what is read if it kept nothing. -/
def Fills (ms : List (String × Tree)) (f : φ) (before after : Option (L.Held f)) : Prop :=
  (under (r.label f) ms = [] ∧ after = before) ∨
    before = none ∧ ∃ t v, under (r.label f) ms = [t] ∧ L.read f t = .ok v ∧ after = some v

theorem fills_cons_of_ne {k : String} {f : φ} (h : k ≠ r.label f) (t : Tree)
    (before after : Option (L.Held f)) :
    L.Fills ((k, t) :: ms) f before after ↔ L.Fills ms f before after := by
  unfold Fills
  rw [under_cons_of_ne h]

theorem fills_cons_self {f : φ} {t : Tree} {v : L.Held f} (hv : L.read f t = .ok v)
    (after : Option (L.Held f)) :
    L.Fills ((r.label f, t) :: ms) f none after ↔ L.Fills ms f (some v) after := by
  unfold Fills
  rw [under_cons_self]
  constructor
  · rintro (⟨h, -⟩ | ⟨-, u, w, hu, hw, rfl⟩)
    · cases h
    · obtain ⟨rfl, hnil⟩ := List.cons.inj hu
      exact .inl ⟨hnil, congrArg some (Except.ok.inj (hw.symm.trans hv))⟩
  · rintro (⟨hnil, rfl⟩ | ⟨h, -⟩)
    · exact .inr ⟨rfl, t, v, by rw [hnil], hv, rfl⟩
    · cases h

/-- A draft keeps what stands under the names of the fields. -/
theorem members_eq_ok_iff : ∀ {ms : List (String × Tree)} {d d' : δ},
    (∀ m ∈ ms, m.2.isClosed = true) →
      (r.members true d (ms.map fun m => (some m.1, m.2)) = .ok d' ↔
        ∀ f, L.Fills ms f (L.get f d) (L.get f d'))
  | [], d, d', _ => by
    constructor
    · intro h f
      obtain rfl := Except.ok.inj h
      exact .inl ⟨rfl, rfl⟩
    · intro h
      refine congrArg Except.ok (L.ext fun f => ?_)
      rcases h f with ⟨-, hf⟩ | ⟨-, t, v, hnil, -⟩
      · exact hf.symm
      · cases hnil
  | (k, t) :: ms, d, d', hclosed => by
    obtain ⟨ht, hms⟩ := List.forall_mem_cons.1 hclosed
    rw [List.map_cons, members]
    cases hk : r.field? k with
    | none =>
      -- The name of no field : the draft stays as it is, and so does what stands under the names.
      have hne : ∀ f, k ≠ r.label f := by
        rintro f rfl
        rw [L.field?_label] at hk
        cases hk
      simp only [ht, if_true]
      rw [members_eq_ok_iff hms]
      exact forall_congr' fun f => (L.fills_cons_of_ne (hne f) t _ _).symm
    | some f =>
      obtain rfl := label_of_field? hk
      dsimp only
      cases hget : L.get f d with
      | some v =>
        -- The field is in the draft already, so the member is one too many.
        rw [L.filled_eq, hget]
        refine iff_of_false (by simp) fun h => ?_
        rcases h f with ⟨hnil, -⟩ | ⟨hnone, -⟩
        · rw [under_cons_self] at hnil
          cases hnil
        · rw [hget] at hnone
          cases hnone
      | none =>
        rw [L.filled_eq, hget, L.fill_eq]
        cases hread : L.read f t with
        | error e =>
          refine iff_of_false (by simp [Except.map]) fun h => ?_
          rcases h f with ⟨hnil, -⟩ | ⟨-, u, v, hu, hv, -⟩
          · rw [under_cons_self] at hnil
            cases hnil
          · rw [under_cons_self] at hu
            obtain ⟨rfl, -⟩ := List.cons.inj hu
            rw [hread] at hv
            cases hv
        | ok v =>
          refine (members_eq_ok_iff hms).trans (forall_congr' fun g => ?_)
          by_cases hg : f = g
          · subst hg
            rw [L.get_set, hget, L.fills_cons_self hread]
          · have hne : r.label f ≠ r.label g := fun h => hg (L.label_injective h)
            rw [L.get_set_of_ne f g v d hg, L.fills_cons_of_ne hne]

/-! ## Reading a record -/

/-- What the members say for a field. -/
def Reads (ms : List (String × Tree)) (f : φ) (v : L.Held f) : Prop :=
  Says (r.label f) ms (L.read f) (L.default? f) v

theorem reads_iff {f : φ} {v : L.Held f} : L.Reads ms f v ↔
    ∃ v?, L.Fills ms f none v? ∧ v?.or (L.default? f) = some v := by
  constructor
  · rintro (⟨hnil, hv⟩ | ⟨t, ht, hv⟩)
    · exact ⟨none, .inl ⟨hnil, rfl⟩, hv⟩
    · exact ⟨some v, .inr ⟨rfl, t, v, ht, hv, rfl⟩, rfl⟩
  · rintro ⟨v?, ⟨hnil, rfl⟩ | ⟨-, t, w, ht, hw, rfl⟩, hv⟩
    · exact .inl ⟨hnil, hv⟩
    · obtain rfl := Option.some.inj hv
      exact .inr ⟨t, ht, hw⟩

/-- A record is read off an object if each of its fields is. -/
theorem decode_object_iff (hms : ∀ m ∈ ms, m.2.isClosed = true) {a : α} :
    r.decode (.object ms) = .ok a ↔ ∀ f, L.Reads ms f (L.part f a) := by
  have hdecode : r.decode (.object ms) = .ok a ↔
      ∃ d, r.members true r.blank (ms.map fun m => (some m.1, m.2)) = .ok d ∧
        r.finish d = .ok a := by
    rw [Tree.object, decode]
    cases hm : r.members true r.blank (ms.map fun m => (some m.1, m.2)) with
    | error e => simp
    | ok d =>
      have hcomplete : r.complete d = .ok a ↔ r.finish d = .ok a := by
        rw [complete]
        cases r.finish d with
        | error f => exact iff_of_false (fun h => by cases h) fun h => by cases h
        | ok b =>
          exact ⟨fun h => congrArg Except.ok (Except.ok.inj h),
            fun h => congrArg Except.ok (Except.ok.inj h)⟩
      simp [hcomplete]
  rw [hdecode]
  constructor
  · rintro ⟨d, hd, ha⟩ f
    have hfill := (L.members_eq_ok_iff hms).1 hd f
    rw [L.get_blank] at hfill
    exact L.reads_iff.2 ⟨L.get f d, hfill, (L.finish_eq_ok_iff d a).1 ha f⟩
  · intro h
    choose vs hfill hvs using fun f => L.reads_iff.1 (h f)
    refine ⟨L.make vs, (L.members_eq_ok_iff hms).2 fun f => ?_,
      (L.finish_eq_ok_iff _ a).2 fun f => ?_⟩
    · rw [L.get_blank, L.get_make]
      exact hfill f
    · rw [L.get_make]
      exact hvs f

include L in
/-- What is read off an object depends only on what stands under the names of the fields. -/
theorem decode_object_perm (hms : ∀ m ∈ ms, m.2.isClosed = true)
    (hms' : ∀ m ∈ ms', m.2.isClosed = true)
    (h : ∀ f, (under (r.label f) ms').Perm (under (r.label f) ms)) {a : α} :
    r.decode (.object ms') = .ok a ↔ r.decode (.object ms) = .ok a := by
  rw [L.decode_object_iff hms, L.decode_object_iff hms']
  refine forall_congr' fun f => ?_
  simp only [Reads, Says, under_eq_nil_of_perm (h f), under_eq_singleton_of_perm (h f)]

/-! ## Arrays -/

/-- The items of an array fill the drafts as members under the names of the fields do. -/
theorem items_eq_ok_iff : ∀ {fs : List φ} {ts : List Tree} {i : Nat} {d d' : δ}, fs.Nodup →
    (∀ f ∈ fs, L.get f d = none) → (r.items true i d fs ts = .ok d' ↔
      ts.length ≤ fs.length ∧ (∀ f ∈ fs.drop ts.length, r.omissible f = true) ∧
        r.members true d (((fs.map r.label).zip ts).map fun m => (some m.1, m.2)) = .ok d')
  | [], [], i, d, d', _, _ => by simp [items, members]
  | [], t :: ts, i, d, d', _, _ => by simp [items]
  | f :: fs, [], i, d, d', hfs, hd => by
    have ih : r.items true (i + 1) d fs [] = .ok d' ↔ _ :=
      items_eq_ok_iff (List.nodup_cons.1 hfs).2 fun g hg => hd g (List.mem_cons_of_mem f hg)
    cases hf : r.omissible f <;> simp_all [items]
  | f :: fs, t :: ts, i, d, d', hfs, hd => by
    obtain ⟨hmem, hfs⟩ := List.nodup_cons.1 hfs
    have hfree : r.filled f d = false := by
      rw [L.filled_eq, hd f List.mem_cons_self]
      rfl
    rw [items, List.map_cons, List.zip_cons_cons, List.map_cons, members, L.field?_label]
    dsimp only
    rw [hfree, L.fill_eq]
    cases L.read f t with
    | error e => simp [Except.map]
    | ok v =>
      simp only [Except.map]
      refine (items_eq_ok_iff hfs fun g hg => ?_).trans ?_
      · have hne : f ≠ g := fun h => hmem (h ▸ hg)
        rw [L.get_set_of_ne f g v d hne]
        exact hd g (List.mem_cons_of_mem f hg)
      · simp

include L in
/-- An array is read as the object with its items under the names of the fields; only fields
that may be left out may be without an item, and no item without a field. -/
theorem decode_array_iff (hfields : r.fields.Nodup) {ts : List Tree} {a : α} :
    r.decode (.array ts) = .ok a ↔
      ts.length ≤ r.fields.length ∧ (∀ f ∈ r.fields.drop ts.length, r.omissible f = true) ∧
        r.decode (.object ((r.fields.map r.label).zip ts)) = .ok a := by
  have hitems : ∀ d, r.items true 0 r.blank r.fields ts = .ok d ↔ _ := fun d =>
    L.items_eq_ok_iff hfields fun f _ => L.get_blank f
  rw [Tree.array, Tree.object, decode, decode]
  cases hi : r.items true 0 r.blank r.fields ts with
  | error e =>
    refine iff_of_false (by simp) ?_
    rintro ⟨hlen, homit, hd⟩
    cases hm : r.members true r.blank
        (((r.fields.map r.label).zip ts).map fun m => (some m.1, m.2)) with
    | error e => simp [hm] at hd
    | ok d =>
      rw [(hitems d).2 ⟨hlen, homit, hm⟩] at hi
      cases hi
  | ok d =>
    obtain ⟨hlen, homit, hm⟩ := (hitems d).1 hi
    simp only [hm]
    exact ⟨fun ha => ⟨hlen, homit, ha⟩, fun ha => ha.2.2⟩

end Layout

/-! ## What is no record -/

variable {φ δ α : Type} {r : Record φ δ α}

theorem of_members_eq_ok : ∀ {closed : Bool} {ms : List (Option String × Tree)} {d d' : δ},
    r.members closed d ms = .ok d' →
      closed = true ∧ ∃ ms' : List (String × Tree), ms = ms'.map fun m => (some m.1, m.2)
  | closed, [], d, d', h => by
    cases closed with
    | true => exact ⟨rfl, [], rfl⟩
    | false => simp [members] at h
  | closed, (none, t) :: ms, d, d', h => by simp [members] at h
  | closed, (some k, t) :: ms, d, d', h => by
    have hrest : ∃ d, r.members closed d ms = .ok d' := by
      rw [members] at h
      split at h
      · split at h
        · exact ⟨d, h⟩
        · cases h
      · split at h
        · cases h
        · split at h
          · cases h
          · exact ⟨_, h⟩
    obtain ⟨d, hd⟩ := hrest
    obtain ⟨hclosed, ms', rfl⟩ := of_members_eq_ok hd
    exact ⟨hclosed, (k, t) :: ms', rfl⟩

theorem of_items_eq_ok : ∀ {closed : Bool} {fs : List φ} {ts : List Tree} {i : Nat} {d d' : δ},
    r.items closed i d fs ts = .ok d' → closed = true
  | closed, [], [], i, d, d', h => by
    cases closed with
    | true => rfl
    | false => simp [items] at h
  | closed, [], t :: ts, i, d, d', h => by simp [items] at h
  | closed, f :: fs, [], i, d, d', h => by
    cases closed with
    | true => rfl
    | false => simp [items] at h
  | closed, f :: fs, t :: ts, i, d, d', h => by
    rw [items] at h
    split at h
    · cases h
    · exact of_items_eq_ok h

/-- A record is read off objects and arrays only. -/
theorem of_decode_eq_ok {t : Tree} {a : α} (h : r.decode t = .ok a) :
    (∃ ms, t = .object ms) ∨ ∃ ts, t = .array ts := by
  cases t with
  | obj ms closed =>
    rw [decode] at h
    split at h
    · cases h
    · next hm =>
      obtain ⟨rfl, ms', rfl⟩ := of_members_eq_ok hm
      exact .inl ⟨ms', rfl⟩
  | arr ts closed =>
    rw [decode] at h
    split at h
    · cases h
    · next hi =>
      obtain rfl := of_items_eq_ok hi
      exact .inr ⟨ts, rfl⟩
  | _ => simp [decode] at h

end Record

end Courier.Json
