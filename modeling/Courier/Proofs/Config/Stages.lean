import Courier.Proofs.Config.Secrets
import Courier.Proofs.Steps
import Courier.Proofs.Text.Valid

/-!
# The stages of a load

Files are loaded in three stages : all of them are read, then each layer has to be a document with
a value, and only then the merged value is searched for secrets. `Obstacle` lists what stands in
the way of a load, each with all that comes before it out of the way, so that there is one of them
at most. A load fails of the obstacle that there is (`ofPaths_eq_error_iff`), and else has the
merged value of the layers (`ofPaths_eq_ok_iff`).
-/

namespace Courier.Config

open Json (Value)
open Json.Value

variable {file : String → Option (List UInt8)} {path text : String} {paths texts : List String}
  {e : LoadError}

/-! ## Reading -/

/-- The file at a path holds the text. -/
def Holds (file : String → Option (List UInt8)) (path text : String) : Prop :=
  file path = some (Utf8.ofString text)

theorem readText_eq_ok_iff : readText file path = .ok text ↔ Holds file path text := by
  have hdecode : ∀ cs : List Char, (file path).bind Utf8.decode? = some cs ↔
      file path = some (Utf8.encode cs) := by
    simp [Option.bind_eq_some_iff, Utf8.decode?_eq_some_iff]
  rw [readText, Holds, Utf8.ofString, ← hdecode]
  cases (file path).bind Utf8.decode? with
  | none => simp
  | some cs => simp [← String.toList_inj]

theorem readText_eq_error_iff : readText file path = .error e ↔
    (¬∃ text, Holds file path text) ∧ e = .unreadable path := by
  simp only [← readText_eq_ok_iff, readText]
  cases (file path).bind Utf8.decode? <;> simp [eq_comm]

theorem readTexts_eq_mapM : ∀ paths : List String,
    readTexts file paths = paths.mapM (readText file)
  | [] => rfl
  | path :: rest => by
    rw [readTexts, List.mapM_cons, readTexts_eq_mapM rest]
    cases readText file path with
    | error e => rfl
    | ok text => cases rest.mapM (readText file) <;> rfl

theorem readTexts_eq_ok_iff : readTexts file paths = .ok texts ↔
    List.Forall₂ (Holds file) paths texts := by
  simp only [readTexts_eq_mapM, mapM_eq_ok_iff, readText_eq_ok_iff]

/-- Reading fails of the first file that is no text, whatever the others hold. -/
theorem readTexts_eq_error_iff : readTexts file paths = .error e ↔
    ∃ path, FirstWithout (fun path => ∃ text, Holds file path text) paths path ∧
      e = .unreadable path := by
  rw [readTexts_eq_mapM, mapM_eq_error_iff]
  simp only [readText_eq_ok_iff, readText_eq_error_iff]
  refine exists_congr fun path => ⟨?_, ?_⟩
  · rintro ⟨hfirst, -, he⟩
    exact ⟨hfirst, he⟩
  · rintro ⟨hfirst, he⟩
    exact ⟨hfirst, hfirst.lacks, he⟩

/-! ## Layers -/

/-- A document has no value if it is not valid or has a key that no object can have. -/
theorem layer_eq_error_iff {i : Nat} {d : Option Yaml.Value} : layer i d = .error e ↔
    d = none ∧ e = .invalid i ∨ ∃ y, d = some y ∧ y.toJson? = none ∧ e = .unconvertible i := by
  unfold layer
  cases d with
  | none => simp [eq_comm]
  | some y => cases hy : y.toJson? <;> simp [hy, eq_comm]

/-- The layers fail as the lowest of them that has no value, whatever the later ones are. -/
theorem layers_eq_error_iff : ∀ {i : Nat} {documents : List (Option Yaml.Value)},
    layers i documents = .error e ↔ ∃ before d after, documents = before ++ d :: after ∧
      (∀ d ∈ before, ∃ v, Says d v) ∧ layer (i + before.length) d = .error e
  | i, [] => by simp [layers]
  | i, d :: rest => by
    have hindex : ∀ before : List (Option Yaml.Value),
        i + (d :: before).length = i + 1 + before.length := by
      intro before
      rw [List.length_cons, Nat.add_comm before.length, Nat.add_assoc]
    simp only [layers_eq_bind, bind_eq_error_iff, layer_eq_ok_iff, map_eq_error_iff,
      layers_eq_error_iff]
    constructor
    · rintro (hd | ⟨v, hv, before, d', after, rfl, hbefore, hd'⟩)
      · exact ⟨[], d, rest, rfl, by simp, hd⟩
      · exact ⟨d :: before, d', after, rfl, List.forall_mem_cons.2 ⟨⟨v, hv⟩, hbefore⟩,
          hindex before ▸ hd'⟩
    · rintro ⟨_ | ⟨d', before⟩, d'', after, h, hbefore, hd⟩
      · obtain ⟨rfl, rfl⟩ := List.cons.inj h
        exact .inl hd
      · obtain ⟨rfl, rfl⟩ := List.cons.inj h
        obtain ⟨⟨v, hv⟩, hbefore⟩ := List.forall_mem_cons.1 hbefore
        exact .inr ⟨v, hv, before, d'', after, rfl, hbefore, hindex before ▸ hd⟩

/-! ## Obstacles -/

/-- What stands in the way of loading files, with all that comes before it out of the way. -/
inductive Obstacle (file : String → Option (List UInt8)) (paths : List String) : LoadError → Prop
  /-- The first file that is not there or no text. -/
  | unreadable {path : String}
    (h : FirstWithout (fun path => ∃ text, Holds file path text) paths path) :
    Obstacle file paths (.unreadable path)
  /-- All files are texts, and the lowest layer without a value is no valid document. -/
  | invalid {texts : List String} {before after : List (Option Yaml.Value)}
    (hread : List.Forall₂ (Holds file) paths texts)
    (h : texts.map Yaml.parse? = before ++ none :: after)
    (hbefore : ∀ d ∈ before, ∃ v, Says d v) : Obstacle file paths (.invalid before.length)
  /-- All files are texts, and the lowest layer without a value has a key that is none of an
  object. -/
  | unconvertible {texts : List String} {before after : List (Option Yaml.Value)} {y : Yaml.Value}
    (hread : List.Forall₂ (Holds file) paths texts)
    (h : texts.map Yaml.parse? = before ++ some y :: after)
    (hbefore : ∀ d ∈ before, ∃ v, Says d v) (hy : y.toJson? = none) :
    Obstacle file paths (.unconvertible before.length)
  /-- Every layer has a value, and the merged one a secret. -/
  | secret {texts : List String} {values : List Value} {before after : List (List String × Value)}
    {path : List String} {s : String} (hread : List.Forall₂ (Holds file) paths texts)
    (hvalues : List.Forall₂ Says (texts.map Yaml.parse?) values)
    (h : (mergeAll values).leaves = before ++ (path, .str s) :: after)
    (hbefore : ∀ l ∈ before, ∀ s', l.2 = .str s' → ¬Secret s') (hs : Secret s) :
    Obstacle file paths (.secret (leafPointer path))

theorem ofPaths_eq_bind (paths : List String) :
    ofPaths file paths = readTexts file paths >>= ofTexts := by
  rw [ofPaths]
  cases readTexts file paths <;> rfl

/-- A load fails of what stands in its way. -/
theorem ofPaths_eq_error_iff : ofPaths file paths = .error e ↔ Obstacle file paths e := by
  rw [ofPaths_eq_bind, bind_eq_error_iff, readTexts_eq_error_iff]
  simp only [readTexts_eq_ok_iff, ofTexts, ofDocuments_eq_bind, bind_eq_error_iff,
    layers_eq_error_iff, layers_eq_ok_iff, ofValue_eq_error_iff, firstSecret?_eq_some_iff,
    layer_eq_error_iff, Nat.zero_add]
  constructor
  · rintro (⟨path, hfirst, rfl⟩ | ⟨texts, hread, ⟨before, d, after, h, hbefore, hd⟩ |
      ⟨values, hvalues, _, ⟨before, path, s, after, h, hbefore, hs, rfl⟩, rfl⟩⟩)
    · exact .unreadable hfirst
    · obtain ⟨rfl, rfl⟩ | ⟨y, rfl, hy, rfl⟩ := hd
      · exact .invalid hread h hbefore
      · exact .unconvertible hread h hbefore hy
    · exact .secret hread hvalues h hbefore hs
  · rintro (hfirst | ⟨hread, h, hbefore⟩ | ⟨hread, h, hbefore, hy⟩ |
      ⟨hread, hvalues, h, hbefore, hs⟩)
    · exact .inl ⟨_, hfirst, rfl⟩
    · exact .inr ⟨_, hread, .inl ⟨_, _, _, h, hbefore, .inl ⟨rfl, rfl⟩⟩⟩
    · exact .inr ⟨_, hread, .inl ⟨_, _, _, h, hbefore, .inr ⟨_, rfl, hy, rfl⟩⟩⟩
    · exact .inr ⟨_, hread, .inr ⟨_, hvalues, _, ⟨_, _, _, _, h, hbefore, hs, rfl⟩, rfl⟩⟩

/-! ## Which stage fails -/

theorem exists_unreadable_iff : (∃ path, Obstacle file paths (.unreadable path)) ↔
    ∃ path ∈ paths, ¬∃ text, Holds file path text := by
  rw [← exists_firstWithout_iff]
  constructor
  · rintro ⟨path, ⟨h⟩⟩
    exact ⟨path, h⟩
  · rintro ⟨path, h⟩
    exact ⟨path, .unreadable h⟩

/-- A layer is in the way if all files are texts and one of their documents has no value. -/
theorem exists_faulty_iff :
    (∃ i, Obstacle file paths (.invalid i) ∨ Obstacle file paths (.unconvertible i)) ↔
      ∃ texts, List.Forall₂ (Holds file) paths texts ∧
        ∃ d ∈ texts.map Yaml.parse?, ¬∃ v, Says d v := by
  constructor
  · rintro ⟨i, hinvalid | hkeys⟩
    · cases hinvalid with
      | invalid hread h hbefore =>
        refine ⟨_, hread, none, h ▸ List.mem_append_cons_self, ?_⟩
        simp [Says]
    · cases hkeys with
      | unconvertible hread h hbefore hy =>
        refine ⟨_, hread, _, h ▸ List.mem_append_cons_self, ?_⟩
        simp [Says, hy]
  · rintro ⟨texts, hread, hd⟩
    obtain ⟨d, before, after, h, hd, hbefore⟩ := exists_firstWithout_iff.2 hd
    cases d with
    | none => exact ⟨before.length, .inl (.invalid hread h hbefore)⟩
    | some y =>
      have hy : y.toJson? = none :=
        Option.eq_none_iff_forall_ne_some.2 fun v hv => hd ⟨v, y, rfl, hv⟩
      exact ⟨before.length, .inr (.unconvertible hread h hbefore hy)⟩

/-- A secret is in the way if every layer has a value and the merged one has a secret. -/
theorem exists_secret_iff : (∃ pointer, Obstacle file paths (.secret pointer)) ↔
    ∃ texts values, List.Forall₂ (Holds file) paths texts ∧
      List.Forall₂ Says (texts.map Yaml.parse?) values ∧
        ∃ s, Part (mergeAll values) (.str s) ∧ Secret s := by
  simp only [← exists_firstSecret?_iff, firstSecret?_eq_some_iff]
  constructor
  · rintro ⟨_, hsecret⟩
    cases hsecret with
    | secret hread hvalues h hbefore hs =>
      exact ⟨_, _, hread, hvalues, _, _, _, _, _, h, hbefore, hs, rfl⟩
  · rintro ⟨texts, values, hread, hvalues, _, before, path, s, after, h, hbefore, hs, rfl⟩
    exact ⟨_, .secret hread hvalues h hbefore hs⟩

/-! ## Loads -/

/-- Files that load : all are texts of documents with values, and no secret is in the merged value,
which is that of the configuration. -/
def Loads (file : String → Option (List UInt8)) (paths : List String) (c : Config) : Prop :=
  ∃ texts values, List.Forall₂ (Holds file) paths texts ∧
    List.Forall₂ Says (texts.map Yaml.parse?) values ∧
    (∀ s, Part (mergeAll values) (.str s) → ¬Secret s) ∧ c.value = mergeAll values

theorem ofPaths_eq_ok_iff {c : Config} : ofPaths file paths = .ok c ↔ Loads file paths c := by
  rw [ofPaths_eq_bind, bind_eq_ok_iff, Loads]
  simp only [readTexts_eq_ok_iff, ofTexts, ofDocuments_eq_ok_iff, firstSecret?_eq_none_iff,
    exists_and_left]

/-- Files load unless something is in the way. -/
theorem exists_loads_iff : (∃ c, Loads file paths c) ↔ ∀ e, ¬Obstacle file paths e := by
  simp only [← ofPaths_eq_ok_iff, ← ofPaths_eq_error_iff]
  cases ofPaths file paths <;> simp

/-- A configuration that loads has an ordered value. -/
theorem Loads.ordered {c : Config} (h : Loads file paths c) : c.value.Ordered := by
  obtain ⟨texts, values, -, hvalues, -, hc⟩ := h
  rw [hc]
  exact ordered_mergeAll hvalues

end Courier.Config
