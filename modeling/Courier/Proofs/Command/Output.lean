import Courier.Proofs.Command.Send
import Courier.Proofs.Exchange.Convergence
import Courier.Proofs.Exchange.Credentials
import Courier.Proofs.Text.Parts

/-!
# The lines of an output

What a command prints is read line by line (`linesOf`), and a printed text is one line exactly if
there is no line end in it (`partsOf_eq_singleton_iff`). A delivery prints the word for it, the
number of attempts and the version of the rules, and the id of the event if that is recorded
(`printed_of_delivered`). The version is the server's (`version_of_delivered`), and the one text that
may make more than one line (`send_lines`).
-/

namespace Courier.Command

/-! ## Lines -/

/-- The lines of an output, each of which has a line end behind it. -/
def linesOf (output : String) : List String :=
  (output.toList.splitOn '\n').dropLast.map String.ofList

/-- The parts of a text before, between and behind its line ends. -/
def partsOf (text : String) : List String :=
  (text.toList.splitOn '\n').map String.ofList

theorem splitOn_join : ∀ texts : List String,
    (String.join (texts.map (· ++ "\n"))).toList.splitOn '\n' =
      texts.flatMap (fun text => text.toList.splitOn '\n') ++ [[]]
  | [] => rfl
  | text :: texts => by
    have hfirst : (String.join ((text :: texts).map (· ++ "\n"))).toList =
        text.toList ++ '\n' :: (String.join (texts.map (· ++ "\n"))).toList := by
      simp [String.toList_join]
    rw [hfirst, List.splitOn_append_cons_self, splitOn_join texts, List.flatMap_cons,
      List.append_assoc]

/-- The lines of an output are the parts of what is printed. -/
theorem linesOf_outputText (r : Report) : linesOf r.outputText = r.printed.flatMap partsOf := by
  rw [linesOf, Report.outputText, splitOn_join, List.dropLast_concat, List.map_flatMap]
  rfl

theorem length_splitOn (cs : List Char) : (cs.splitOn '\n').length = cs.count '\n' + 1 := by
  induction cs with
  | nil => rfl
  | cons c cs ih =>
    rw [List.splitOn_cons_eq_if_modifyHead, List.count_cons]
    split
    · rw [List.length_cons, ih]
    · rw [List.length_modifyHead, ih]

theorem length_partsOf (text : String) : (partsOf text).length = text.toList.count '\n' + 1 := by
  rw [partsOf, List.length_map, length_splitOn]

/-- A printed text without line end makes one line. -/
theorem partsOf_of_notMem {text : String} (h : '\n' ∉ text.toList) : partsOf text = [text] := by
  rw [partsOf, List.splitOn_eq_singleton h, List.map_singleton, String.ofList_toList]

theorem partsOf_eq_singleton_iff {text : String} : partsOf text = [text] ↔ '\n' ∉ text.toList := by
  refine ⟨fun h => ?_, partsOf_of_notMem⟩
  have hlength := length_partsOf text
  rw [h, List.length_singleton] at hlength
  exact List.count_eq_zero.1 (by omega)

/-- The first part of a text is the whole of it only if there is no line end. -/
theorem head?_partsOf_iff {text : String} :
    (partsOf text).head? = some text ↔ '\n' ∉ text.toList := by
  constructor
  · intro h hmem
    obtain ⟨part, hpart, htext⟩ := List.mem_map.1 (List.mem_of_head? h)
    rw [← htext, String.toList_ofList] at hmem
    exact (Text.of_mem_splitOn hpart hmem).2 rfl
  · intro h
    rw [partsOf_of_notMem h, List.head?_cons]

variable {first second text : String} {rest : List String}

/-- A text is the third line behind two others only if there is no line end in it. -/
theorem third_line_iff :
    ([first, second] ++ partsOf text ++ rest)[2]? = some text ↔ '\n' ∉ text.toList := by
  have hlength : 0 < (partsOf text).length := by
    rw [length_partsOf]
    omega
  have hthird : ([first, second] ++ partsOf text ++ rest)[2]? = (partsOf text).head? :=
    calc ([first, second] ++ partsOf text ++ rest)[2]?
      _ = (partsOf text ++ rest)[0]? := rfl
      _ = (partsOf text)[0]? := List.getElem?_append_left hlength
      _ = (partsOf text).head? := List.head?_eq_getElem?.symm
  rw [hthird, head?_partsOf_iff]

theorem three_lines_iff : [first, second] ++ partsOf text ++ rest = [first, second, text] ++ rest ↔
    '\n' ∉ text.toList := by
  rw [← partsOf_eq_singleton_iff, List.append_left_inj, show [first, second, text] =
    [first, second] ++ [text] from rfl, List.append_right_inj]

/-! ## Texts without line ends -/

theorem notMem_deliveryWord (d : Delivery) : '\n' ∉ ("delivery=" ++ deliveryWord d).toList := by
  cases d <;> decide

theorem notMem_attempts (n : Nat) : '\n' ∉ ("attempts=" ++ toString n).toList := by
  rw [String.toList_append, List.mem_append, not_or]
  refine ⟨by decide, fun h => ?_⟩
  rw [Nat.toString_eq_repr, Nat.repr_eq_ofList_toDigits, String.toList_ofList] at h
  exact absurd (Nat.isDigit_of_mem_toDigits (by decide) (by decide) h) (by decide)

/-- Ids are written with digits and dashes. -/
def IsIdText (text : String) : Prop :=
  ∀ c ∈ text.toList, c ∈ "0123456789abcdef-".toList

theorem notMem_eventId {text : String} (h : IsIdText text) :
    '\n' ∉ ("event_id=" ++ text).toList := by
  rw [String.toList_append, List.mem_append, not_or]
  exact ⟨by decide, fun hmem => absurd (h _ hmem) (by decide)⟩

/-! ## What a delivery prints -/

/-- The command has added a row to the database. -/
def Report.Recorded (r : Report) : Prop :=
  ∃ row, .record row ∈ r.effects

/-- The texts are the one with the id of a recorded event, or none if none is recorded. -/
def Report.ShowsId (r : Report) (id : Store.EventId) (texts : List String) : Prop :=
  r.Recorded ∧ texts = ["event_id=" ++ id.text] ∨ ¬r.Recorded ∧ texts = []

variable {w : World} {configs : List String} {request : SendRequest} {recording : Bool}
  {p : Preparation} {d : Delivery} {k : Nat} {e : Event}

theorem not_recorded_ending (c : Conclusion) : ¬(Report.ending c).Recorded := by
  rintro ⟨row, hrow⟩
  cases hrow

/-- Recording an event prints its id, and nothing if it fails. -/
theorem printed_reportRecord (w : World) (e : Event) :
    (reportRecord w e).ShowsId w.newId (reportRecord w e).printed := by
  unfold reportRecord
  split
  · exact .inr ⟨not_recorded_ending _, rfl⟩
  · exact .inl ⟨⟨_, List.mem_cons_self⟩, rfl⟩

/-- Requests and lines before the rest of a report change nothing about what it records. -/
theorem recorded_after_iff {r : Report} {requests : List Request} {texts : List String} :
    ((r.after (texts.map .print)).after (requests.map .request)).Recorded ↔ r.Recorded := by
  simp [Report.Recorded, Report.after]

theorem printed_after (r : Report) (requests : List Request) (texts : List String) :
    ((r.after (texts.map .print)).after (requests.map .request)).printed = texts ++ r.printed := by
  have hrequests : (requests.map Effect.request).filterMap (·.printed?) = [] := by
    simp [List.filterMap_map, Effect.printed?]
  have htexts : (texts.map Effect.print).filterMap (·.printed?) = texts := by
    simp [List.filterMap_map, Effect.printed?]
  simp only [Report.printed, Report.after, List.filterMap_append, hrequests, htexts, List.nil_append]

/-- A delivery prints three texts, and the id of the event if that is recorded. -/
theorem printed_of_delivered (h : Prepares w configs request p)
    (hend : (p.run w).ending = .delivered d k e) :
    ∃ rest, (send w configs request recording).printed = deliveryLines d k e ++ rest ∧
      (send w configs request recording).ShowsId w.newId rest := by
  rw [send_of_prepares h, hend, reportEnding, printed_after]
  refine ⟨_, rfl, ?_⟩
  rw [Report.ShowsId, recorded_after_iff]
  cases recording with
  | false => exact .inr ⟨not_recorded_ending _, rfl⟩
  | true => exact printed_reportRecord w e

/-! ## The version of the rules -/

/-- An event starts without a version. -/
theorem rulesVersion_toEvent (h : request.toEvent = .ok e) : e.rulesVersion = "" := by
  obtain ⟨-, entries, -, rfl⟩ := SendRequest.toEvent_eq_ok_iff.1 h
  rfl

/-- The version of an event that is delivered is that of the snapshot that the server sent last, if
it sent any. -/
theorem version_of_delivered (h : Prepares w configs request p)
    (hend : (p.run w).ending = .delivered d k e) :
    k = 1 ∧ e.rulesVersion = "" ∨ ∃ i x s, k = i + 2 ∧
      (w.exchanges p.client.endpoint.processEvent)[i]? = some x ∧
      p.settings.policy.Receives x s ∧ e.rulesVersion = s.version := by
  obtain ⟨i, x, rfl, hi, hx, hresult⟩ := Policy.delivered_iff.1 hend
  have hmakes : p.client.refusal? = none :=
    p.client.refusal?_eq_none_of_result hx hresult (by simp) (by simp)
  cases i with
  | zero =>
    obtain rfl := Option.some.inj ((Policy.sent_zero _ _ _ _).symm.trans hi)
    exact .inl ⟨rfl, rulesVersion_toEvent h.event⟩
  | succ i =>
    obtain ⟨-, eᵢ, y, -, hy, s, ids, hs, -, rfl⟩ := Policy.renews_of_sent hi
    rw [Client.exchanges, hmakes] at hy
    exact .inr ⟨i, y, s, rfl, hy, hs, rfl⟩

/-! ## The lines -/

theorem notMem_version_iff : '\n' ∉ ("rules_version=" ++ e.rulesVersion).toList ↔
    '\n' ∉ e.rulesVersion.toList := by
  simp

/-- Each text that a delivery prints is one line, the version aside. -/
theorem lines_of_delivered (hid : IsIdText w.newId.text) (h : Prepares w configs request p)
    (hend : (p.run w).ending = .delivered d k e) :
    ∃ rest, linesOf (send w configs request recording).outputText =
        ["delivery=" ++ deliveryWord d, "attempts=" ++ toString k] ++
          partsOf ("rules_version=" ++ e.rulesVersion) ++ rest ∧
      (send w configs request recording).ShowsId w.newId rest := by
  obtain ⟨rest, hprinted, hrest⟩ := @printed_of_delivered _ _ _ recording _ _ _ _ h hend
  have hparts : rest.flatMap partsOf = rest := by
    rcases hrest with ⟨-, rfl⟩ | ⟨-, rfl⟩
    · rw [List.flatMap_singleton, partsOf_of_notMem (notMem_eventId hid)]
    · rfl
  refine ⟨rest, ?_, hrest⟩
  rw [linesOf_outputText, hprinted, List.flatMap_append, hparts, deliveryLines, List.flatMap_cons,
    List.flatMap_cons, List.flatMap_singleton, partsOf_of_notMem (notMem_deliveryWord d),
    partsOf_of_notMem (notMem_attempts k)]
  rfl

/-- The output of a command that delivers its event is a line for the delivery, one for the number
of its requests, the lines of the version that the last request carries, and one for the id if the
event is recorded. The version is empty or that of the snapshot that the server sent last. It is on
one line, and on the third, exactly if there is no line end in it. -/
theorem send_lines (hid : IsIdText w.newId.text) (h : Prepares w configs request p)
    (hend : (p.run w).ending = .delivered d k e) :
    ∃ front last rest, p.client.requests (p.run w) = front ++ [last] ∧ k = front.length + 1 ∧
      Event.ofJson (Utf8.ofString last.body) = .ok e ∧
      (k = 1 ∧ e.rulesVersion = "" ∨ ∃ i x s, k = i + 2 ∧
        (w.exchanges p.client.endpoint.processEvent)[i]? = some x ∧
        p.settings.policy.Receives x s ∧ e.rulesVersion = s.version) ∧
      (send w configs request recording).ShowsId w.newId rest ∧
      let lines := linesOf (send w configs request recording).outputText
      lines = ["delivery=" ++ deliveryWord d, "attempts=" ++ toString k] ++
          partsOf ("rules_version=" ++ e.rulesVersion) ++ rest ∧
        lines.length = 3 + e.rulesVersion.toList.count '\n' + rest.length ∧
        (lines[2]? = some ("rules_version=" ++ e.rulesVersion) ↔ '\n' ∉ e.rulesVersion.toList) ∧
        (lines = ["delivery=" ++ deliveryWord d, "attempts=" ++ toString k,
          "rules_version=" ++ e.rulesVersion] ++ rest ↔ '\n' ∉ e.rulesVersion.toList) := by
  obtain ⟨front, last, x, hrequests, hk, -, -, hbody⟩ := exists_last_request hend
  obtain ⟨rest, hlines, hrest⟩ := @lines_of_delivered _ _ _ recording _ _ _ _ hid h hend
  refine ⟨front, last, rest, hrequests, hk, hbody, version_of_delivered h hend, hrest, hlines, ?_,
    ?_, ?_⟩
  · have hcount : ("rules_version=" ++ e.rulesVersion).toList.count '\n' =
        e.rulesVersion.toList.count '\n' := by simp
    rw [hlines, List.length_append, List.length_append, length_partsOf, hcount, List.length_cons,
      List.length_singleton]
    omega
  · rw [hlines, third_line_iff, notMem_version_iff]
  · rw [hlines, ← notMem_version_iff]
    exact three_lines_iff

/-- A world with a configuration and a database, in which the first request meets rules of a version
and the second is accepted. -/
def served (version : String) : World where
  file _ := some (Utf8.ofString "notifications:\n  url: http://h\n  username: u\n")
  env name := some (if name = Store.addressVariable then "postgres://h" else "p")
  exchanges _ := [Senders.refused version, Senders.accepted]
  reach _ := .ok ⟨some .empty, [], 1, fun _ => none⟩
  newId := ⟨"c-1"⟩
  now := ⟨0⟩

/-- A request with none of the fields that may be left out. -/
def bareRequest : SendRequest :=
  ⟨"n", .unknown, .none, "", [], "", "", none, ""⟩

/-- What is prepared for it. -/
def barePreparation : Preparation :=
  ⟨Settings.ofCredentials "u" "p", .bare "n" .unknown, Settings.clientOf "u" "p"⟩

theorem prepares_served (version : String) :
    Prepares (served version) ["c"] bareRequest barePreparation where
  settings := by
    have hsettings : ((Config.ofPaths (served "").file ["c"]).toOption.bind fun config =>
        (Settings.resolve config.value (served "").env).toOption) =
          some barePreparation.settings := by
      decide +kernel
    obtain ⟨config, hconfig, hresolve⟩ := Option.bind_eq_some_iff.1 hsettings
    exact ⟨config, toOption_eq_some_iff.1 hconfig, toOption_eq_some_iff.1 hresolve⟩
  event := by decide +kernel
  endpoint := by decide +kernel
  credentials := rfl

theorem isIdText_served (version : String) : IsIdText (served version).newId.text := by
  have h : "c-1".toList.all ("0123456789abcdef-".toList.contains ·) = true := by decide
  intro c hc
  exact List.contains_iff_mem.1 (List.all_eq_true.1 h c hc)

/-- A version with blanks, and a recorded event. -/
theorem send_lines_recorded :
    (barePreparation.run (served "v 2")).ending =
        .delivered .accepted 2 (Senders.oneRuleEvent "v 2") ∧
      linesOf (send (served "v 2") ["c"] bareRequest true).outputText =
        ["delivery=accepted", "attempts=2", "rules_version=v 2",
          "event_id=c-1"] := by
  have hend : (barePreparation.run (served "v 2")).ending =
      .delivered .accepted 2 (Senders.oneRuleEvent "v 2") := by
    decide +kernel
  have hrecorded : (send (served "v 2") ["c"] bareRequest true).Recorded := by
    rw [send_of_prepares (prepares_served _), hend, reportEnding, recorded_after_iff, if_pos rfl]
    have hprinted : (reportRecord (served "v 2") (Senders.oneRuleEvent "v 2")).printed ≠ [] := by
      decide +kernel
    rcases printed_reportRecord (served "v 2") (Senders.oneRuleEvent "v 2") with ⟨h, -⟩ | ⟨-, h⟩
    · exact h
    · exact absurd h hprinted
  obtain ⟨front, last, rest, -, -, -, -, hrest, -, -, -, hexact⟩ :=
    @send_lines _ _ _ true _ _ _ _ (isIdText_served "v 2") (prepares_served "v 2") hend
  refine ⟨hend, ?_⟩
  rcases hrest with ⟨-, rfl⟩ | ⟨hnot, -⟩
  · exact hexact.2 (by decide)
  · exact absurd hrecorded hnot

/-- A version with a line end makes two lines. -/
theorem send_lines_broken :
    (barePreparation.run (served "a\nb")).ending =
        .delivered .accepted 2 (Senders.oneRuleEvent "a\nb") ∧
      (barePreparation.run (served "a\nb")).sent.getLast? =
        some (Senders.oneRuleEvent "a\nb") ∧
      (Senders.oneRuleEvent "a\nb").rulesVersion = "a\nb" ∧
      linesOf (send (served "a\nb") ["c"] bareRequest false).outputText =
        ["delivery=accepted", "attempts=2", "rules_version=a", "b"] := by
  have hrun : barePreparation.run (served "a\nb") =
      ⟨[.bare "n" .unknown, Senders.oneRuleEvent "a\nb"],
        .delivered .accepted 2 (Senders.oneRuleEvent "a\nb")⟩ := by
    decide +kernel
  refine ⟨by rw [hrun], by rw [hrun]; rfl, rfl, ?_⟩
  rw [linesOf_outputText, send_of_prepares (prepares_served _), hrun, reportEnding, printed_after]
  decide

end Courier.Command
