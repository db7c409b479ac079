/-!
# Dictionaries and sets with text keys

Both are lists in strictly ascending order of their keys, by code points, so that two
of them with the same content are equal. `Entries.get?` and `Entries.insert` work on
bare lists of pairs; `Dict` and `KeySet` carry the order as a proof.

Main statements: looking a key up after an insertion gives the inserted value
(`Entries.get?_insert`), and an insertion keeps the order (`Entries.ordered_insert`).
-/

namespace Courier

/-! ## Lists of pairs -/

namespace Entries

variable {α : Type _}

/-- The value of the first pair with the key. -/
def get? (k : String) : List (String × α) → Option α
  | [] => none
  | (k', v) :: rest => if k' = k then some v else get? k rest

/-- The pairs with `v` as the value of `k`, in place of the one it had or in front of
the first greater key. -/
def insert (k : String) (v : α) : List (String × α) → List (String × α)
  | [] => [(k, v)]
  | (k', v') :: rest =>
    if k < k' then (k, v) :: (k', v') :: rest
    else if k' = k then (k, v) :: rest
    else (k', v') :: insert k v rest

/-- Strictly ascending keys. -/
def Ordered (es : List (String × α)) : Prop :=
  es.Pairwise fun a b => a.1 < b.1

instance (es : List (String × α)) : Decidable (Ordered es) :=
  inferInstanceAs (Decidable (es.Pairwise fun a b => a.1 < b.1))

/-- The pairs of a list in order; of two pairs with one key the later one stays. -/
def ofList (es : List (String × α)) : List (String × α) :=
  es.foldl (fun acc e => insert e.1 e.2 acc) []

theorem get?_insert (k k' : String) (v : α) (es : List (String × α)) :
    get? k' (insert k v es) = if k = k' then some v else get? k' es := by
  induction es with
  | nil => simp [insert, get?]
  | cons e rest ih =>
    obtain ⟨k₀, v₀⟩ := e
    grind [insert, get?]

theorem fst_mem_insert {k : String} {v : α} {es : List (String × α)} {e : String × α}
    (h : e ∈ insert k v es) : e = (k, v) ∨ e ∈ es := by
  induction es with
  | nil => simpa [insert] using h
  | cons e₀ rest ih =>
    obtain ⟨k₀, v₀⟩ := e₀
    grind [insert]

theorem ordered_insert (k : String) (v : α) {es : List (String × α)} (h : Ordered es) :
    Ordered (insert k v es) := by
  induction es with
  | nil => simp [insert, Ordered]
  | cons e rest ih =>
    obtain ⟨k₀, v₀⟩ := e
    obtain ⟨hlt, hrest⟩ := List.pairwise_cons.1 h
    unfold insert
    split
    · next hk =>
      refine List.pairwise_cons.2 ⟨fun e he => ?_, h⟩
      rcases List.mem_cons.1 he with rfl | he
      · exact hk
      · exact String.lt_trans hk (hlt e he)
    · split
      · next _ hk => exact List.pairwise_cons.2 ⟨fun e he => hk ▸ hlt e he, hrest⟩
      · next hnlt hne =>
        refine List.pairwise_cons.2 ⟨fun e he => ?_, ih hrest⟩
        rcases fst_mem_insert he with rfl | he
        · show k₀ < k
          have hle : k₀ ≤ k := String.not_lt.1 hnlt
          exact String.not_le.1 fun hge => hne (String.le_antisymm hle hge)
        · exact hlt e he

theorem ordered_foldl_insert (es : List (String × α)) {acc : List (String × α)}
    (h : Ordered acc) : Ordered (es.foldl (fun acc e => insert e.1 e.2 acc) acc) := by
  induction es generalizing acc with
  | nil => exact h
  | cons e rest ih => exact ih (ordered_insert e.1 e.2 h)

theorem ordered_ofList (es : List (String × α)) : Ordered (ofList es) :=
  ordered_foldl_insert es List.Pairwise.nil

end Entries

/-! ## Dictionaries -/

/-- A finite map from texts, its keys in strictly ascending order. -/
structure Dict (α : Type _) where
  /-- The pairs of key and value. -/
  entries : List (String × α)
  ordered : Entries.Ordered entries

namespace Dict

variable {α : Type _}

@[ext] theorem ext {d e : Dict α} (h : d.entries = e.entries) : d = e := by
  cases d; cases e; simp_all

instance [DecidableEq α] : DecidableEq (Dict α) := fun d e =>
  if h : d.entries = e.entries then isTrue (ext h) else isFalse fun he => h (he ▸ rfl)

/-- The dictionary without keys. -/
def empty : Dict α := ⟨[], List.Pairwise.nil⟩

instance : EmptyCollection (Dict α) := ⟨empty⟩

instance : Inhabited (Dict α) := ⟨empty⟩

/-- The value of a key. -/
def get? (d : Dict α) (k : String) : Option α :=
  Entries.get? k d.entries

/-- The dictionary with `v` as the value of `k`. -/
def insert (d : Dict α) (k : String) (v : α) : Dict α :=
  ⟨Entries.insert k v d.entries, Entries.ordered_insert k v d.ordered⟩

/-- The dictionary of a list of pairs; of two pairs with one key the later one counts. -/
def ofList (es : List (String × α)) : Dict α :=
  ⟨Entries.ofList es, Entries.ordered_ofList es⟩

/-- The values, by ascending key. -/
def values (d : Dict α) : List α :=
  d.entries.map (·.2)

theorem get?_insert (d : Dict α) (k k' : String) (v : α) :
    (d.insert k v).get? k' = if k = k' then some v else d.get? k' :=
  Entries.get?_insert k k' v d.entries

end Dict

/-! ## Sets -/

namespace Keys

/-- The list with `k` in its place, once. -/
def insert (k : String) : List String → List String
  | [] => [k]
  | k' :: rest =>
    if k < k' then k :: k' :: rest
    else if k' = k then k :: rest
    else k' :: insert k rest

/-- Strictly ascending. -/
def Ordered (ks : List String) : Prop :=
  ks.Pairwise (· < ·)

instance (ks : List String) : Decidable (Ordered ks) :=
  inferInstanceAs (Decidable (ks.Pairwise (· < ·)))

/-- The texts of a list in order, each once. -/
def ofList (ks : List String) : List String :=
  ks.foldl (fun acc k => insert k acc) []

theorem mem_insert {k k' : String} {ks : List String} :
    k' ∈ insert k ks ↔ k' = k ∨ k' ∈ ks := by
  induction ks with
  | nil => simp [insert]
  | cons k₀ rest ih => grind [insert]

theorem ordered_insert (k : String) {ks : List String} (h : Ordered ks) :
    Ordered (insert k ks) := by
  induction ks with
  | nil => simp [insert, Ordered]
  | cons k₀ rest ih =>
    obtain ⟨hlt, hrest⟩ := List.pairwise_cons.1 h
    unfold insert
    split
    · next hk =>
      refine List.pairwise_cons.2 ⟨fun e he => ?_, h⟩
      rcases List.mem_cons.1 he with rfl | he
      · exact hk
      · exact String.lt_trans hk (hlt e he)
    · split
      · next _ hk => exact List.pairwise_cons.2 ⟨fun e he => hk ▸ hlt e he, hrest⟩
      · next hnlt hne =>
        refine List.pairwise_cons.2 ⟨fun e he => ?_, ih hrest⟩
        rcases mem_insert.1 he with rfl | he
        · have hle : k₀ ≤ e := String.not_lt.1 hnlt
          exact String.not_le.1 fun hge => hne (String.le_antisymm hle hge)
        · exact hlt e he

theorem ordered_foldl_insert (ks : List String) {acc : List String} (h : Ordered acc) :
    Ordered (ks.foldl (fun acc k => insert k acc) acc) := by
  induction ks generalizing acc with
  | nil => exact h
  | cons k rest ih => exact ih (ordered_insert k h)

theorem ordered_ofList (ks : List String) : Ordered (ofList ks) :=
  ordered_foldl_insert ks List.Pairwise.nil

theorem mem_foldl_insert {k : String} (ks : List String) {acc : List String} :
    k ∈ ks.foldl (fun acc k => insert k acc) acc ↔ k ∈ ks ∨ k ∈ acc := by
  induction ks generalizing acc with
  | nil => simp
  | cons k₀ rest ih => simp only [List.foldl_cons, ih, mem_insert, List.mem_cons]; grind

theorem mem_ofList {k : String} {ks : List String} : k ∈ ofList ks ↔ k ∈ ks := by
  simp [ofList, mem_foldl_insert]

end Keys

/-- A finite set of texts, in strictly ascending order. -/
structure KeySet where
  /-- The members. -/
  toList : List String
  ordered : Keys.Ordered toList

namespace KeySet

@[ext] theorem ext {s t : KeySet} (h : s.toList = t.toList) : s = t := by
  cases s; cases t; simp_all

instance : DecidableEq KeySet := fun s t =>
  if h : s.toList = t.toList then isTrue (ext h) else isFalse fun he => h (he ▸ rfl)

/-- The set without members. -/
def empty : KeySet := ⟨[], List.Pairwise.nil⟩

instance : EmptyCollection KeySet := ⟨empty⟩

instance : Inhabited KeySet := ⟨empty⟩

/-- The set with one more member. -/
def insert (s : KeySet) (k : String) : KeySet :=
  ⟨Keys.insert k s.toList, Keys.ordered_insert k s.ordered⟩

/-- The set of the texts in a list. -/
def ofList (ks : List String) : KeySet :=
  ⟨Keys.ofList ks, Keys.ordered_ofList ks⟩

instance : Membership String KeySet := ⟨fun s k => k ∈ s.toList⟩

theorem mem_ofList {k : String} {ks : List String} : k ∈ ofList ks ↔ k ∈ ks :=
  Keys.mem_ofList

end KeySet

end Courier
