import Courier.Json.Tree

/-!
# The grammar of JSON texts

`Spells t cs` : the characters `cs` are a JSON text, and `t` is what they say. The relation has
one rule for each production of the grammar, and knows nothing of scanning : blanks may stand
around every value, a string is written part by part (`Piece.Spells`), a number as sign, whole
part, fraction and power.

A string literal whose escapes spell no text, and a number that is out of range, can stand only
where nothing is read of them, and so never for the name of a member that is looked at; their
trees are `Tree.str none` and `Tree.num none`. The object of members with proper names is
`Tree.object`.
-/

namespace Courier.Json

/-- Characters that may stand between tokens. -/
def Blank (cs : List Char) : Prop :=
  ∀ c ∈ cs, isSpace c = true

theorem blank_nil : Blank [] := by
  simp [Blank]

/-! ## Strings -/

/-- A part of the content of a string literal. -/
inductive Piece where
  | char (c : Char)
  /-- A 16-bit unit, of which a character takes one or two. -/
  | unit (n : Nat)

namespace Piece

/-- The letters that may follow a backslash, with what they stand for. -/
def letters : List (Char × Char) :=
  [('"', '"'), ('\\', '\\'), ('/', '/'), ('b', '\x08'), ('f', '\x0c'), ('n', '\n'), ('r', '\r'),
    ('t', '\t')]

/-- How a part is written : a character as itself or with a letter, a unit with four
hexadecimal digits. -/
inductive Spells : Piece → List Char → Prop
  | plain {c : Char} : c ≠ '"' → c ≠ '\\' → ¬c.toNat < 0x20 → Spells (.char c) [c]
  | letter {l c : Char} : (l, c) ∈ letters → Spells (.char c) ['\\', l]
  | digits {h₁ h₂ h₃ h₄ : Char} {d₁ d₂ d₃ d₄ : Nat} : Text.hexDigit? h₁ = some d₁ →
      Text.hexDigit? h₂ = some d₂ → Text.hexDigit? h₃ = some d₃ → Text.hexDigit? h₄ = some d₄ →
      Spells (.unit (16 * (16 * (16 * d₁ + d₂) + d₃) + d₄)) ['\\', 'u', h₁, h₂, h₃, h₄]

/-- The characters that parts stand for; none if half of a surrogate pair is without the
other. -/
def text? : List Piece → Option (List Char)
  | [] => some []
  | .char c :: rest => (text? rest).map (c :: ·)
  | .unit n :: rest =>
    if 0xD800 ≤ n ∧ n < 0xDC00 then
      match rest with
      | .unit m :: rest =>
        if 0xDC00 ≤ m ∧ m < 0xE000 then
          (text? rest).map (Char.ofNat (0x10000 + (n - 0xD800) * 0x400 + (m - 0xDC00)) :: ·)
        else none
      | _ => none
    else if 0xDC00 ≤ n ∧ n < 0xE000 then none
    else (text? rest).map (Char.ofNat n :: ·)

/-- A unit that starts no pair is a character, unless it could only end one. -/
theorem text?_unit {n : Nat} (h : ¬(0xD800 ≤ n ∧ n < 0xDC00)) (rest : List Piece) :
    text? (.unit n :: rest) =
      if 0xDC00 ≤ n ∧ n < 0xE000 then none else (text? rest).map (Char.ofNat n :: ·) := by
  rcases rest with _ | ⟨_ | _, _⟩ <;> simp only [text?, if_neg h]

end Piece

/-- The literal of a string, part by part between quotes. -/
inductive SpellsText : Option String → List Char → Prop
  | mk {parts : List (Piece × List Char)} : (∀ p ∈ parts, p.1.Spells p.2) →
      SpellsText ((Piece.text? (parts.map Prod.fst)).map String.ofList)
        ('"' :: (parts.flatMap Prod.snd ++ ['"']))

/-! ## Numbers -/

/-- At least one digit, with their values. -/
def SpellsDigits (ds : List Nat) (cs : List Char) : Prop :=
  cs ≠ [] ∧ cs.map digit? = ds.map some

/-- The sign of a number. -/
inductive SpellsSign : Bool → List Char → Prop
  | none : SpellsSign false []
  | minus : SpellsSign true ['-']

/-- The whole part of a number : zero, or digits of which the first is not zero. -/
inductive SpellsWhole : List Nat → List Char → Prop
  | zero : SpellsWhole [0] ['0']
  | digits {ds : List Nat} {cs : List Char} : SpellsDigits ds cs → ds.head? ≠ some 0 →
      SpellsWhole ds cs

/-- The fraction of a number, which it may lack. -/
inductive SpellsFraction : Option (List Nat) → List Char → Prop
  | none : SpellsFraction none []
  | digits {ds : List Nat} {cs : List Char} : SpellsDigits ds cs →
      SpellsFraction (some ds) ('.' :: cs)

/-- The sign of a power. -/
inductive SpellsPowerSign : Bool → List Char → Prop
  | none : SpellsPowerSign false []
  | plus : SpellsPowerSign false ['+']
  | minus : SpellsPowerSign true ['-']

/-- The power of ten of a number, which it may lack. -/
inductive SpellsPower : Option (Bool × List Nat) → List Char → Prop
  | none : SpellsPower none []
  | digits {m : Char} {negative : Bool} {ds : List Nat} {sign cs : List Char} :
      m = 'e' ∨ m = 'E' → SpellsPowerSign negative sign → SpellsDigits ds cs →
      SpellsPower (some (negative, ds)) (m :: (sign ++ cs))

/-- The literal of a number. -/
inductive SpellsNumber : Numeral → List Char → Prop
  | mk {negative : Bool} {whole : List Nat} {fraction : Option (List Nat)}
      {power : Option (Bool × List Nat)} {cs₁ cs₂ cs₃ cs₄ : List Char} : SpellsSign negative cs₁ →
      SpellsWhole whole cs₂ → SpellsFraction fraction cs₃ → SpellsPower power cs₄ →
      SpellsNumber ⟨negative, whole.reverse, fraction.map List.reverse,
        power.map fun p => (p.1, p.2.reverse)⟩ (cs₁ ++ (cs₂ ++ (cs₃ ++ cs₄)))

/-! ## Values -/

/-- The name of a member, blanks around it. -/
inductive SpellsName : Option String → List Char → Prop
  | mk {name : Option String} {before cs after : List Char} : Blank before → SpellsText name cs →
      Blank after → SpellsName name (before ++ (cs ++ after))

/-- An item of an array and its text. -/
structure Item where
  tree : Tree
  text : List Char

/-- A member of an object and its texts on both sides of the colon. -/
structure Member where
  name : Option String
  tree : Tree
  nameText : List Char
  text : List Char

/-- The text of the items after the first. -/
def Item.following (items : List Item) : List Char :=
  items.flatMap fun i => ',' :: i.text

/-- The text of a member. -/
def Member.whole (m : Member) : List Char :=
  m.nameText ++ ':' :: m.text

/-- The text of the members after the first. -/
def Member.following (members : List Member) : List Char :=
  members.flatMap fun m => ',' :: m.whole

/-- The characters are a JSON text of the tree. -/
inductive Spells : Tree → List Char → Prop
  | null : Spells .null ['n', 'u', 'l', 'l']
  | truth : Spells (.bool true) ['t', 'r', 'u', 'e']
  | falsity : Spells (.bool false) ['f', 'a', 'l', 's', 'e']
  | number {n : Numeral} {cs : List Char} : SpellsNumber n cs → Spells (.num n.toNumber?) cs
  | string {s : Option String} {cs : List Char} : SpellsText s cs → Spells (.str s) cs
  | emptyArray {cs : List Char} : Blank cs → Spells (.arr [] true) ('[' :: (cs ++ [']']))
  | array {first : Item} {rest : List Item} : (∀ i ∈ first :: rest, Spells i.tree i.text) →
      Spells (.arr ((first :: rest).map Item.tree) true)
        ('[' :: (first.text ++ (Item.following rest ++ [']'])))
  | emptyObject {cs : List Char} : Blank cs → Spells (.obj [] true) ('\x7b' :: (cs ++ ['\x7d']))
  | object {first : Member} {rest : List Member} :
      (∀ m ∈ first :: rest, SpellsName m.name m.nameText) →
      (∀ m ∈ first :: rest, Spells m.tree m.text) →
      Spells (.obj ((first :: rest).map fun m => (m.name, m.tree)) true)
        ('\x7b' :: (first.whole ++ (Member.following rest ++ ['\x7d'])))
  | blanks {t : Tree} {before cs after : List Char} : Blank before → Spells t cs → Blank after →
      Spells t (before ++ (cs ++ after))

/-! ## Trees of texts -/

namespace Tree

/-- The tree of a string. -/
def text (s : String) : Tree :=
  .str (some s)

/-- The tree of an array. -/
def array (ts : List Tree) : Tree :=
  .arr ts true

/-- The tree of an object, the names of its members all texts. -/
def object (ms : List (String × Tree)) : Tree :=
  .obj (ms.map fun m => (some m.1, m.2)) true

theorem object_injective {ms ms' : List (String × Tree)} (h : object ms = object ms') :
    ms = ms' := by
  refine (List.map_inj_right ?_).1 (Tree.obj.inj h).1
  rintro ⟨k, t⟩ ⟨k', t'⟩ h
  simpa using h

/-- The trees right inside a tree. -/
def parts : Tree → List Tree
  | .arr ts _ => ts
  | .obj ms _ => ms.map Prod.snd
  | _ => []

end Tree

variable {t : Tree} {cs : List Char} {ms : List (String × Tree)}

theorem Spells.isClosed (h : Spells t cs) : t.isClosed = true := by
  induction h with
  | blanks _ _ _ ih => exact ih
  | _ => rfl

/-- What stands inside a text is a text by itself. -/
theorem Spells.parts (h : Spells t cs) : ∀ u ∈ t.parts, ∃ cs', Spells u cs' := by
  induction h with
  | @array first rest hitems _ =>
    intro u hu
    obtain ⟨i, hi, rfl⟩ := List.mem_map.1 hu
    exact ⟨i.text, hitems i hi⟩
  | @object first rest _ hmembers _ =>
    intro u hu
    simp only [Tree.parts, List.map_map, List.mem_map, Function.comp_apply] at hu
    obtain ⟨m, hm, rfl⟩ := hu
    exact ⟨m.text, hmembers m hm⟩
  | blanks _ _ _ ih => exact ih
  | _ => simp [Tree.parts]

theorem Spells.member (h : Spells (.object ms) cs) {m : String × Tree} (hm : m ∈ ms) :
    ∃ cs', Spells m.2 cs' := by
  refine h.parts m.2 ?_
  simp only [Tree.object, Tree.parts, List.map_map, List.mem_map, Function.comp_apply]
  exact ⟨m, hm, rfl⟩

theorem Spells.closed_items {ts : List Tree} (h : Spells (.array ts) cs) :
    ∀ t ∈ ts, t.isClosed = true := by
  intro t ht
  obtain ⟨cs', h'⟩ := h.parts t ht
  exact h'.isClosed

theorem Spells.closed_members (h : Spells (.object ms) cs) : ∀ m ∈ ms, m.2.isClosed = true := by
  intro m hm
  obtain ⟨cs', h'⟩ := h.member hm
  exact h'.isClosed

end Courier.Json
