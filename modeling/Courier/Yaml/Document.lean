import Courier.Yaml.Layout
import Courier.Yaml.Scalar

/-!
# Documents

`parse?` reads the value of a document. Aliases are written out. Collections may lie 128
deep, counted through aliases, and there may be a hundred aliases written out for every
mark and text of the document; so a document of nothing but aliases stays small.
-/

namespace Courier.Yaml

/-- How deep collections may lie in one another. -/
def maxDepth : Nat := 128

/-- How often an alias may be written out for each mark and text. -/
def aliasRate : Nat := 100

/-- A value with the tag of its node, if that is one of the document's own. -/
def withTag (tag : Option Tag) (v : Value) : Value :=
  (tag.bind Scalar.ownTag?).elim v fun t => .tagged t v

namespace Node

/-- The node that an alias stands for, at the cost of one of the aliases left; another
node itself. -/
def follow (anchored : List (Nat × Node)) (n : Node) : StateT Nat Option Node := do
  match n with
  | .alias a =>
    match ← get, (anchored.findSome? fun e => if e.1 = a then some e.2 else none) with
    | left + 1, some n =>
      set left
      return n
    | _, _ => failure
  | n => return n

/-- The value of a node with at most `depth` collections in one another. `anchored` lists
the anchored nodes, for every number the one that counts first; the state is the number
of aliases that may yet be written out. -/
def value (anchored : List (Nat × Node)) : Nat → Node → StateT Nat Option Value
  | depth, n => do
    match ← follow anchored n, depth with
    | .scalar _ tag s plain, _ => (Scalar.value? tag s plain : Option Value)
    | .seq _ tag items, depth + 1 =>
      return withTag tag (.seq (← items.mapM (value anchored depth)))
    | .map _ tag entries, depth + 1 =>
      let entries ← entries.mapM fun e => do
        let k ← value anchored depth e.1
        return (k, ← value anchored depth e.2)
      if Value.distinctKeys entries then return withTag tag (.map entries) else failure
    | _, _ => failure

end Node

/-- The value of a document; `none` if it is not valid. A document of blanks and comments
is null. -/
def parse? (text : String) : Option Value := do
  let s ← Source.ofText? text
  let ts ← Token.ofSource? s
  match ← Node.ofTokens? ts with
  | none => return .null
  | some n =>
    let (v, _) ← n.value (n.anchored []).reverse maxDepth (aliasRate * n.size)
    return v

end Courier.Yaml
