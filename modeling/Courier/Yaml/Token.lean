/-!
# Tokens

The marks and texts that a document is made of. What a block holds is told by its
indentation; in a list of tokens blocks have a start and an end of their own.
-/

namespace Courier.Yaml

/-- A tag, or the start of one that a handle stands for, in UTF-8. -/
abbrev Tag := List UInt8

/-- A token of a document. -/
inductive Token where
  /-- The line that starts a document. -/
  | documentStart
  /-- The line that ends a document. -/
  | documentEnd
  /-- A directive that names the version. -/
  | version (major minor : Nat)
  /-- A directive that says what a handle stands for. -/
  | handle (name : String) (start : Tag)
  | blockSeq
  | blockMap
  | blockEnd
  | flowSeq
  | flowSeqEnd
  | flowMap
  | flowMapEnd
  /-- The mark of an item of a block sequence. -/
  | item
  /-- The mark between two items of a bracketed collection. -/
  | comma
  /-- The mark of a key, written or not. -/
  | key
  /-- The mark of the value of a key. -/
  | value
  | alias (name : String)
  | anchor (name : String)
  /-- A tag as written: its handle, empty if it has none, and the rest. -/
  | tag (handle : String) (rest : Tag)
  /-- A text, and whether it is a plain one. -/
  | scalar (text : String) (plain : Bool)
deriving DecidableEq

end Courier.Yaml
