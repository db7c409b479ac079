import Courier.Event.Basic
import Courier.Rules.Snapshot

/-!
# Which rules apply

A `Matcher` decides whether a rule applies to an event, or fails with a reason. The ids
of the rules that apply are those that the rules themselves carry, and there are none as
soon as the matcher fails on one rule.

In which order the rules of a snapshot are visited is open, and may be another one each
time. `Event.reconcileAmong` takes the rules in the order in which they are visited, and a
`Visit` gives one for each attempt of a run. `Snapshot.matchingIds` and `Event.reconcile`
visit the rules by ascending key.
-/

namespace Courier

/-- Decides whether a rule applies to an event. -/
abbrev Matcher := Rule → Event → Except String Bool

/-- The rules without an object filter apply, to every object. -/
def Matcher.unfiltered : Matcher :=
  fun r _ => .ok r.objectFilter.isNone

/-- A failure of a matcher, with the rule that it failed on. -/
structure MatchError where
  id : String
  name : String
  reason : String
deriving DecidableEq, Repr

/-- The wording of a matcher's failure, without its reason. -/
def MatchError.message (e : MatchError) : String :=
  "evaluating rule id=" ++ e.id ++ " name=" ++ Text.quote e.name

/-- The ids of those of the rules that apply, added to `ids` in order. -/
def matchingAmong (m : Matcher) (e : Event) (ids : KeySet) : List Rule → Except MatchError KeySet
  | [] => .ok ids
  | r :: rest =>
    match m r e with
    | .error reason => .error ⟨r.id, r.name, reason⟩
    | .ok true => matchingAmong m e (ids.insert r.id) rest
    | .ok false => matchingAmong m e ids rest

/-- The ids of the rules of a snapshot that apply to an event. -/
def Snapshot.matchingIds (s : Snapshot) (e : Event) (m : Matcher) : Except MatchError KeySet :=
  matchingAmong m e ∅ s.rules.values

/-- The event with the version of a snapshot and the ids of those of the rules that apply, which are
visited in order. -/
def Event.reconcileAmong (e : Event) (s : Snapshot) (m : Matcher) (rules : List Rule) :
    Except MatchError Event :=
  (matchingAmong m e ∅ rules).map fun ids => e.withRules s.version ids

/-- The event with the version of a snapshot and the ids of its rules that apply. -/
def Event.reconcile (e : Event) (s : Snapshot) (m : Matcher) : Except MatchError Event :=
  e.reconcileAmong s m s.rules.values

/-- An order of the rules of every snapshot, for each attempt of a run one of its own. -/
structure Visit where
  rules : Nat → Snapshot → List Rule
  perm : ∀ attempt s, (rules attempt s).Perm s.rules.values

/-- The rules by ascending key, after every attempt. -/
def Visit.ascending : Visit where
  rules _ s := s.rules.values
  perm _ _ := .refl _

end Courier
