import Courier.Command.Run
import Courier.Proofs.Command.Output
import Courier.Proofs.Config.Report
import Courier.Proofs.Config.Stages
import Courier.Proofs.Json.Printed

/-!
# What showing a configuration prints

The command that shows a configuration prints all or nothing. What stands in the way of the load
ends it, and then the keys that nobody reads if they are not to be there; otherwise it prints the
digest of the canonical text and that text (`Shows`). Digests are written with sixty-four digits
(`isDigest_hexDigest`) and the text of a value has no line end, so that there are two lines,
whatever the configuration holds (`configHash_staged`).
-/

namespace Courier

/-! ## Digests -/

/-- A text of sixty-four hexadecimal digits in lower case. -/
def Sha256.IsDigest (text : String) : Prop :=
  text.toList.length = 64 ∧ ∀ c ∈ text.toList, c ∈ "0123456789abcdef".toList

theorem Text.mem_hexByte {b : UInt8} {c : Char} (h : c ∈ Text.hexByte b) :
    c ∈ "0123456789abcdef".toList := by
  have hdigit : ∀ i : Fin 16, Nat.digitChar i ∈ "0123456789abcdef".toList := by decide
  have hb : b.toNat < 256 := b.toNat_lt
  rcases List.mem_pair.1 h with rfl | rfl
  · exact hdigit ⟨b.toNat / 16, by omega⟩
  · exact hdigit ⟨b.toNat % 16, by omega⟩

theorem Sha256.isDigest_hexDigest (message : List UInt8) : IsDigest (hexDigest message) := by
  rw [IsDigest, hexDigest, String.toList_ofList]
  refine ⟨rfl, fun c hc => ?_⟩
  obtain ⟨b, -, hb⟩ := List.mem_flatMap.1 hc
  exact Text.mem_hexByte hb

namespace Command

open Config

variable {w : World} {paths : List String} {failUnused : Bool} {c : Config} {e : LoadError}

/-- A command shows a canonical text : it ends well and prints the digest of the text and the text,
each on a line of its own. -/
structure Shows (r : Report) (text : String) : Prop where
  conclusion : r.conclusion = .done
  output : r.outputText =
    "config_hash=" ++ Sha256.hexDigest (Utf8.ofString text) ++ "\n" ++ text ++ "\n"
  lines : linesOf r.outputText = ["config_hash=" ++ Sha256.hexDigest (Utf8.ofString text), text]
  digest : Sha256.IsDigest (Sha256.hexDigest (Utf8.ofString text))

theorem notMem_hash (message : List UInt8) :
    '\n' ∉ ("config_hash=" ++ Sha256.hexDigest message).toList := by
  obtain ⟨-, hdigits⟩ := Sha256.isDigest_hexDigest message
  rw [String.toList_append, List.mem_append, not_or]
  exact ⟨by decide, fun hmem => absurd (hdigits _ hmem) (by decide)⟩

theorem notMem_canonicalText (c : Config) : '\n' ∉ c.canonicalText.toList :=
  c.value.notMem_toText (by decide)

/-- Two texts and warnings. -/
def shown (c : Config) : Report :=
  (Report.output ["config_hash=" ++ c.hash, c.canonicalText]).after
    ((unusedReport consumedPointers c.value).unused.toList.map .warn)

theorem shows_shown (c : Config) : Shows (shown c) c.canonicalText := by
  have hprinted : (shown c).printed = ["config_hash=" ++ c.hash, c.canonicalText] := by
    simp [shown, Report.printed, Report.after, Report.output, List.filterMap_append,
      List.filterMap_map, Effect.printed?]
  refine ⟨rfl, ?_, ?_, Sha256.isDigest_hexDigest _⟩
  · rw [Report.outputText, hprinted, ← String.toList_inj]
    simp [Config.hash]
  · rw [linesOf_outputText, hprinted, List.flatMap_cons, List.flatMap_singleton, Config.hash,
      partsOf_of_notMem (notMem_hash _), partsOf_of_notMem (notMem_canonicalText c)]
    rfl

/-! ## The command -/

/-- There is a leaf in the configuration that nobody reads. -/
def Unread (c : Config) : Prop :=
  ∃ l ∈ c.value.leaves, Uncovered consumedPointers l.1

/-- What a strict command says of such a configuration. -/
def unreadError (c : Config) : UnusedError :=
  ⟨(unusedReport consumedPointers c.value).unused.toList⟩

theorem configHash_of_obstacle (h : Obstacle w.file paths e) :
    configHash w paths failUnused = .failure e.message [] := by
  rw [configHash, ofPaths_eq_error_iff.2 h]

theorem configHash_of_unread (h : Loads w.file paths c) (hunread : Unread c) :
    configHash w paths true = .failure (unreadError c).message [] := by
  have hclean : ¬(unusedReport consumedPointers c.value).isClean = true := by
    rw [(unusedReport_reports h.ordered).clean]
    push Not
    exact hunread
  simp only [configHash, ofPaths_eq_ok_iff.2 h, if_pos, checkUnused_fail, if_neg hclean]
  rfl

theorem configHash_of_loads (h : Loads w.file paths c) (hread : failUnused = true → ¬Unread c) :
    configHash w paths failUnused = shown c := by
  cases failUnused with
  | false =>
    rw [configHash, ofPaths_eq_ok_iff.2 h]
    rfl
  | true =>
    have hclean : (unusedReport consumedPointers c.value).isClean = true := by
      rw [(unusedReport_reports h.ordered).clean]
      exact fun l hl hl' => hread rfl ⟨l, hl, hl'⟩
    simp only [configHash, ofPaths_eq_ok_iff.2 h, if_pos, checkUnused_fail, hclean]
    rfl

/-- The three ways in which the command ends. -/
theorem configHash_cases (w : World) (paths : List String) (failUnused : Bool) :
    (∃ e, Obstacle w.file paths e) ∨ ∃ c, Loads w.file paths c ∧
      (failUnused = true ∧ Unread c ∨ (failUnused = true → ¬Unread c)) := by
  by_cases h : ∃ e, Obstacle w.file paths e
  · exact .inl h
  · obtain ⟨c, hc⟩ := exists_loads_iff.2 (not_exists.1 h)
    exact .inr ⟨c, hc, by tauto⟩

/-- A command that ends well shows the configuration, and would without the strict policy. -/
theorem configHash_of_done (h : (configHash w paths failUnused).conclusion = .done) :
    ∃ c, Loads w.file paths c ∧ configHash w paths failUnused = shown c ∧
      configHash w paths false = shown c := by
  rcases configHash_cases w paths failUnused with
    ⟨e, he⟩ | ⟨c, hc, ⟨rfl, hunread⟩ | hread⟩
  · rw [configHash_of_obstacle he] at h
    cases h
  · rw [configHash_of_unread hc hunread] at h
    cases h
  · exact ⟨c, hc, configHash_of_loads hc hread, configHash_of_loads hc (by simp)⟩

theorem outputText_of_not_done (h : (configHash w paths failUnused).conclusion ≠ .done) :
    (configHash w paths failUnused).outputText = "" := by
  rcases configHash_cases w paths failUnused with
    ⟨e, he⟩ | ⟨c, hc, ⟨rfl, hunread⟩ | hread⟩
  · rw [configHash_of_obstacle he]
    rfl
  · rw [configHash_of_unread hc hunread]
    rfl
  · rw [configHash_of_loads hc hread] at h
    exact absurd (shows_shown c).conclusion h

/-- Loading fails in a fixed order, and the command that shows a configuration prints all or
nothing. A file that is no text is in the way of the load; only if there is none, a layer without a
value is; only if there is none, a secret is; and `Obstacle` says which one. What is in the way ends
the command, and then the keys that nobody reads if it is strict. A command that fails prints
nothing, and one that ends well prints two lines, the digest of the canonical text and that text,
whether it is strict or not. -/
theorem configHash_staged (w : World) (paths : List String) :
    ((∃ path, Obstacle w.file paths (.unreadable path)) ↔
      ∃ path ∈ paths, ¬∃ text, Holds w.file path text) ∧
    ((∃ i, Obstacle w.file paths (.invalid i) ∨ Obstacle w.file paths (.unconvertible i)) ↔
      ∃ texts, List.Forall₂ (Holds w.file) paths texts ∧
        ∃ d ∈ texts.map Yaml.parse?, ¬∃ v, Says d v) ∧
    ((∃ pointer, Obstacle w.file paths (.secret pointer)) ↔
      ∃ texts values, List.Forall₂ (Holds w.file) paths texts ∧
        List.Forall₂ Says (texts.map Yaml.parse?) values ∧
          ∃ s, (mergeAll values).Part (.str s) ∧ Secret s) ∧
    ((∃ c, Loads w.file paths c) ↔ ∀ e, ¬Obstacle w.file paths e) ∧
    (∀ failUnused e, Obstacle w.file paths e →
      configHash w paths failUnused = .failure e.message []) ∧
    (∀ c, Loads w.file paths c →
      (Unread c → configHash w paths true = .failure (unreadError c).message []) ∧
      ∀ failUnused, (failUnused = true → ¬Unread c) →
        Shows (configHash w paths failUnused) c.canonicalText) ∧
    ∀ failUnused,
      ((configHash w paths failUnused).conclusion ≠ .done →
        (configHash w paths failUnused).outputText = "") ∧
      ((configHash w paths failUnused).conclusion = .done →
        (∃ c, Loads w.file paths c ∧ Shows (configHash w paths failUnused) c.canonicalText) ∧
        (configHash w paths failUnused).outputText = (configHash w paths false).outputText) := by
  refine ⟨exists_unreadable_iff, exists_faulty_iff, exists_secret_iff, exists_loads_iff,
    fun _ _ => configHash_of_obstacle, fun c hc => ⟨configHash_of_unread hc, ?_⟩,
    fun failUnused => ⟨outputText_of_not_done, fun hdone => ?_⟩⟩
  · intro failUnused hread
    rw [configHash_of_loads hc hread]
    exact shows_shown c
  · obtain ⟨c, hc, hstrict, hlax⟩ := configHash_of_done hdone
    rw [hstrict, hlax]
    exact ⟨⟨c, hc, shows_shown c⟩, rfl⟩

/-- A world with three files : a secret, no document, and a key that nobody reads. -/
def threeFiles : World :=
  { served "" with
    file := fun path =>
      if path = "secret" then some (Utf8.ofString "a: ghp_01234567")
      else if path = "broken" then some (Utf8.ofString "[")
      else if path = "unread" then some (Utf8.ofString "b: 1")
      else none }

/-- A missing file is reported before the others are looked at, and a broken one before secrets; a
key that nobody reads is in the way of a strict command only. -/
theorem configHash_staged_threeFiles :
    configHash threeFiles ["secret", "broken", "gone"] false =
        .failure "failed to read yaml path: gone" [] ∧
      configHash threeFiles ["secret", "broken"] false = .failure "invalid yaml in layer 1" [] ∧
      (configHash threeFiles ["unread"] true).outputText = "" ∧
      ∃ text, Shows (configHash threeFiles ["unread"] false) text := by
  have hsecret : Holds threeFiles.file "secret" "a: ghp_01234567" := rfl
  have hbroken : Holds threeFiles.file "broken" "[" := rfl
  have hgone : ¬∃ text, Holds threeFiles.file "gone" text := fun ⟨_, h⟩ => by cases h
  have hunread : ∃ c, Loads threeFiles.file ["unread"] c ∧ Unread c := by
    have hload : (Config.ofPaths threeFiles.file ["unread"]).toOption.any
        (fun c => !(unusedReport consumedPointers c.value).isClean) = true := by
      decide +kernel
    obtain ⟨c, hc, hclean⟩ := (Option.any_eq_true _ _).1 hload
    have hloads := ofPaths_eq_ok_iff.1 (toOption_eq_some_iff.1 hc)
    have hreports : Reports consumedPointers c.value _ := unusedReport_reports hloads.ordered
    rw [Bool.not_eq_true', ← Bool.not_eq_true, hreports.clean] at hclean
    push Not at hclean
    exact ⟨c, hloads, hclean⟩
  obtain ⟨c, hc, hidle⟩ := hunread
  obtain ⟨hstrict, hshows⟩ := (configHash_staged threeFiles ["unread"]).2.2.2.2.2.1 c hc
  refine ⟨?_, ?_, ?_, ⟨_, hshows false (by simp)⟩⟩
  · refine (configHash_staged _ _).2.2.2.2.1 false (.unreadable "gone")
      (.unreadable ⟨["secret", "broken"], [], rfl, hgone, ?_⟩)
    simp only [List.forall_mem_cons]
    exact ⟨⟨_, hsecret⟩, ⟨_, hbroken⟩, by simp⟩
  · have hvalue : ((Yaml.parse? "a: ghp_01234567").bind Yaml.Value.toJson?).isSome = true := by
      decide +kernel
    obtain ⟨v, hv⟩ := Option.isSome_iff_exists.1 hvalue
    obtain ⟨y, hy, hyv⟩ := Option.bind_eq_some_iff.1 hv
    have hnone : Yaml.parse? "[" = none := Option.isNone_iff_eq_none.1 (by decide +kernel)
    refine (configHash_staged _ _).2.2.2.2.1 false (.invalid 1)
      (@Obstacle.invalid _ _ _ [some y] [] (.cons hsecret (.cons hbroken .nil)) ?_ ?_)
    · simp [hy, hnone]
    · simpa using ⟨v, y, rfl, hyv⟩
  · rw [hstrict hidle]
    rfl

end Command

end Courier
