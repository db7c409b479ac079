import Courier.Proofs.Json.Scan
import Courier.Proofs.Text.Utf8

/-!
# The tree of a JSON text

A text of the grammar is scanned into tokens, and the stack of open containers turns these into
the tree of the text, wherever a value may come and whatever follows (`reads_of_spells`). So the
document in the bytes of a text is its tree, and nothing follows it (`ofBytes_of_spells`).
-/

namespace Courier.Json

namespace Document

/-- The document of the tokens that follow a step. -/
def resume (s : Step) (rest : List Token) : Document :=
  match s with
  | .running frames place => build frames place rest
  | .finished root => ⟨root, rest.isEmpty⟩
  | .failed => ⟨.broken, false⟩

variable {frames : List Frame} {place : Place}

theorem build_of_step {t : Token} {s : Step} (rest : List Token)
    (h : step frames place t = s) (hs : s ≠ .failed) :
    build frames place (t :: rest) = resume s rest := by
  rw [build, h]
  cases s with
  | running frames' place' => rfl
  | finished root => rfl
  | failed => exact absurd rfl hs

theorem put_ne_failed (h : awaitsValue frames place = true) (t : Tree) :
    put t frames ≠ .failed := by
  cases frames with
  | nil => simp [put]
  | cons f frames => cases f <;> simp_all [put, awaitsValue]

/-- A string where a value may come is a value and no key. -/
theorem step_str (h : awaitsValue frames place = true) (s : Option String) :
    step frames place (.str s) = put (.str s) frames := by
  cases frames with
  | nil => simp [step, scalar, awaitsValue]
  | cons f frames => cases f <;> simp_all [step, scalar, awaitsValue]

/-- A token that is a value by itself. -/
theorem build_token {tok : Token} {t : Tree} (h : awaitsValue frames place = true)
    (htok : step frames place tok = put t frames) (rest : List Token) :
    build frames place ([tok] ++ rest) = resume (put t frames) rest :=
  build_of_step rest htok (put_ne_failed h t)

/-! ## Tokens of a text -/

/-- The text is scanned into the tokens, and these build the tree. -/
structure Reads (cs : List Char) (t : Tree) (toks : List Token) : Prop where
  scan : ∀ ts, Scan.Settled (Scan.feed ⟨ts, .idle⟩ cs) (toks.reverse ++ ts)
  build : ∀ frames place rest, awaitsValue frames place = true →
    build frames place (toks ++ rest) = resume (put t frames) rest

/-- A text that is one token. -/
theorem reads_token {cs : List Char} {t : Tree} {tok : Token}
    (hscan : ∀ ts, Scan.Settled (Scan.feed ⟨ts, .idle⟩ cs) (tok :: ts))
    (hstep : ∀ frames place, awaitsValue frames place = true →
      step frames place tok = put t frames) : Reads cs t [tok] :=
  ⟨hscan, fun _ _ rest h => build_token h (hstep _ _ h) rest⟩

theorem Reads.blanks {before cs after : List Char} {t : Tree} {toks : List Token}
    (h : Reads cs t toks) (hbefore : Blank before) (hafter : Blank after) :
    Reads (before ++ (cs ++ after)) t toks := by
  refine ⟨fun ts => ?_, h.build⟩
  rw [Scan.feed_append, Scan.feed_blank ts hbefore, Scan.feed_append]
  exact (h.scan ts).blank hafter

/-- The items of an array after the first, up to its end. -/
theorem reads_items : ∀ {items : List Item}, (∀ i ∈ items, ∃ toks, Reads i.text i.tree toks) →
    ∃ toks, (∀ s ts, Scan.Settled s ts →
        Scan.feed s (Item.following items ++ [']']) = ⟨toks.reverse ++ ts, .idle⟩) ∧
      ∀ acc frames rest, (∀ t, put t frames ≠ .failed) →
        build (.arr acc :: frames) .filled (toks ++ rest) =
          resume (put (.arr (acc.reverse ++ items.map Item.tree) true) frames) rest
  | [], _ => by
    refine ⟨[.closeArr], fun s ts hs => hs.step ']' (by decide), fun acc frames rest hput => ?_⟩
    rw [List.map_nil, List.append_nil]
    exact build_of_step rest rfl (hput _)
  | i :: items, h => by
    obtain ⟨hi, hitems⟩ := List.forall_mem_cons.1 h
    obtain ⟨toks, hi⟩ := hi
    obtain ⟨toks', hscan, hbuild⟩ := reads_items hitems
    refine ⟨.comma :: (toks ++ toks'), fun s ts hs => ?_, fun acc frames rest hput => ?_⟩
    · have hcomma : s.step (some ',') = ⟨.comma :: ts, .idle⟩ := hs.step ',' (by decide)
      have htext : Item.following (i :: items) ++ [']'] =
          ',' :: (i.text ++ (Item.following items ++ [']'])) := by
        simp [Item.following]
      rw [htext, Scan.feed_cons, hcomma, Scan.feed_append, hscan _ _ (hi.scan _)]
      simp
    · have hcomma : step (.arr acc :: frames) .filled .comma =
          .running (.arr acc :: frames) .next := rfl
      rw [List.cons_append, build_of_step _ hcomma (by simp), List.append_assoc]
      refine (hi.build (.arr acc :: frames) .next _ rfl).trans ?_
      refine (hbuild (i.tree :: acc) frames rest hput).trans ?_
      simp

/-- The members of an object after the first, up to its end. -/
theorem reads_members : ∀ {members : List Member},
    (∀ m ∈ members, SpellsName m.name m.nameText) →
    (∀ m ∈ members, ∃ toks, Reads m.text m.tree toks) →
    ∃ toks, (∀ s ts, Scan.Settled s ts →
        Scan.feed s (Member.following members ++ ['\x7d']) = ⟨toks.reverse ++ ts, .idle⟩) ∧
      ∀ acc frames rest, (∀ t, put t frames ≠ .failed) →
        build (.obj acc :: frames) .filled (toks ++ rest) =
          resume (put (.obj (acc.reverse ++ members.map fun m => (m.name, m.tree)) true) frames)
            rest
  | [], _, _ => by
    refine ⟨[.closeObj], fun s ts hs => hs.step '\x7d' (by decide), fun acc frames rest hput => ?_⟩
    rw [List.map_nil, List.append_nil]
    exact build_of_step rest rfl (hput _)
  | m :: members, hnames, h => by
    obtain ⟨hname, hnames⟩ := List.forall_mem_cons.1 hnames
    obtain ⟨hm, hmembers⟩ := List.forall_mem_cons.1 h
    obtain ⟨toks, hm⟩ := hm
    obtain ⟨toks', hscan, hbuild⟩ := reads_members hnames hmembers
    refine ⟨.comma :: .str m.name :: .colon :: (toks ++ toks'), fun s ts hs => ?_,
      fun acc frames rest hput => ?_⟩
    · have hcomma : s.step (some ',') = ⟨.comma :: ts, .idle⟩ := hs.step ',' (by decide)
      have hcolon : ∀ ts, Scan.step ⟨ts, .idle⟩ (some ':') = ⟨.colon :: ts, .idle⟩ := fun _ => rfl
      have htext : Member.following (m :: members) ++ ['\x7d'] =
          ',' :: (m.nameText ++ ':' :: (m.text ++ (Member.following members ++ ['\x7d']))) := by
        simp [Member.following, Member.whole]
      rw [htext, Scan.feed_cons, hcomma, Scan.feed_append, Scan.feed_spellsName _ hname,
        Scan.feed_cons, hcolon, Scan.feed_append, hscan _ _ (hm.scan _)]
      simp
    · have hcomma : step (.obj acc :: frames) .filled .comma =
          .running (.obj acc :: frames) .next := rfl
      have hname : step (.obj acc :: frames) .next (.str m.name) =
          .running (.member acc m.name :: frames) .opened := rfl
      have hcolon : step (.member acc m.name :: frames) .opened .colon =
          .running (.member acc m.name :: frames) .next := rfl
      rw [List.cons_append, build_of_step _ hcomma (by simp), List.cons_append, resume,
        build_of_step _ hname (by simp), List.cons_append, resume,
        build_of_step _ hcolon (by simp), List.append_assoc]
      refine (hm.build (.member acc m.name :: frames) .next _ rfl).trans ?_
      refine (hbuild ((m.name, m.tree) :: acc) frames rest hput).trans ?_
      simp

/-- What a text of the grammar is read as. -/
theorem reads_of_spells {t : Tree} {cs : List Char} (h : Spells t cs) :
    ∃ toks, Reads cs t toks := by
  induction h with
  | null =>
    exact ⟨[.null], reads_token (fun ts => Scan.settled_idle _) fun _ _ h => if_pos h⟩
  | truth =>
    exact ⟨[.bool true], reads_token (fun ts => Scan.settled_idle _) fun _ _ h => if_pos h⟩
  | falsity =>
    exact ⟨[.bool false], reads_token (fun ts => Scan.settled_idle _) fun _ _ h => if_pos h⟩
  | @number n cs hn =>
    refine ⟨[.num n.toNumber?], reads_token (fun ts => ?_) fun _ _ h => if_pos h⟩
    obtain ⟨p, hp, hfeed⟩ := Scan.feed_spellsNumber ts hn
    rw [hfeed]
    exact Scan.settled_number ts hp n
  | @string s cs hs =>
    refine ⟨[.str s], reads_token (fun ts => ?_) fun _ _ h => step_str h s⟩
    rw [Scan.feed_spellsText ts hs]
    exact Scan.settled_idle _
  | @emptyArray cs hcs =>
    refine ⟨[.openArr, .closeArr], fun ts => ?_, fun frames place rest h => ?_⟩
    · have hopen : Scan.step ⟨ts, .idle⟩ (some '[') = ⟨.openArr :: ts, .idle⟩ := rfl
      rw [Scan.feed_cons, hopen, Scan.feed_append, Scan.feed_blank _ hcs]
      exact Scan.settled_idle _
    · have hopen : step frames place .openArr = .running (.arr [] :: frames) .opened := if_pos h
      rw [List.cons_append, build_of_step _ hopen (by simp)]
      exact build_of_step rest rfl (put_ne_failed h _)
  | @array first items _ ih =>
    obtain ⟨⟨toks, hfirst⟩, hitems⟩ := List.forall_mem_cons.1 ih
    obtain ⟨toks', hscan, hbuild⟩ := reads_items hitems
    refine ⟨.openArr :: (toks ++ toks'), fun ts => ?_, fun frames place rest h => ?_⟩
    · have hopen : Scan.step ⟨ts, .idle⟩ (some '[') = ⟨.openArr :: ts, .idle⟩ := rfl
      rw [Scan.feed_cons, hopen, Scan.feed_append, hscan _ _ (hfirst.scan _)]
      simpa using Scan.settled_idle _
    · have hopen : step frames place .openArr = .running (.arr [] :: frames) .opened := if_pos h
      rw [List.cons_append, build_of_step _ hopen (by simp), List.append_assoc]
      refine (hfirst.build (.arr [] :: frames) .opened _ rfl).trans ?_
      exact hbuild [first.tree] frames rest (put_ne_failed h)
  | @emptyObject cs hcs =>
    refine ⟨[.openObj, .closeObj], fun ts => ?_, fun frames place rest h => ?_⟩
    · have hopen : Scan.step ⟨ts, .idle⟩ (some '\x7b') = ⟨.openObj :: ts, .idle⟩ := rfl
      rw [Scan.feed_cons, hopen, Scan.feed_append, Scan.feed_blank _ hcs]
      exact Scan.settled_idle _
    · have hopen : step frames place .openObj = .running (.obj [] :: frames) .opened := if_pos h
      rw [List.cons_append, build_of_step _ hopen (by simp)]
      exact build_of_step rest rfl (put_ne_failed h _)
  | @object first members hnames _ ih =>
    obtain ⟨hname, hnames⟩ := List.forall_mem_cons.1 hnames
    obtain ⟨⟨toks, hfirst⟩, hmembers⟩ := List.forall_mem_cons.1 ih
    obtain ⟨toks', hscan, hbuild⟩ := reads_members hnames hmembers
    refine ⟨.openObj :: .str first.name :: .colon :: (toks ++ toks'), fun ts => ?_,
      fun frames place rest h => ?_⟩
    · have hopen : Scan.step ⟨ts, .idle⟩ (some '\x7b') = ⟨.openObj :: ts, .idle⟩ := rfl
      have hcolon : ∀ ts, Scan.step ⟨ts, .idle⟩ (some ':') = ⟨.colon :: ts, .idle⟩ := fun _ => rfl
      rw [Scan.feed_cons, hopen, Member.whole, List.append_assoc, Scan.feed_append,
        Scan.feed_spellsName _ hname, List.cons_append, Scan.feed_cons, hcolon, Scan.feed_append,
        hscan _ _ (hfirst.scan _)]
      simpa using Scan.settled_idle _
    · have hopen : step frames place .openObj = .running (.obj [] :: frames) .opened := if_pos h
      have hname : step (.obj [] :: frames) .opened (.str first.name) =
          .running (.member [] first.name :: frames) .opened := rfl
      have hcolon : step (.member [] first.name :: frames) .opened .colon =
          .running (.member [] first.name :: frames) .next := rfl
      rw [List.cons_append, build_of_step _ hopen (by simp), List.cons_append, resume,
        build_of_step _ hname (by simp), List.cons_append, resume,
        build_of_step _ hcolon (by simp), List.append_assoc]
      refine (hfirst.build (.member [] first.name :: frames) .next _ rfl).trans ?_
      exact hbuild [(first.name, first.tree)] frames rest (put_ne_failed h)
  | blanks hbefore _ hafter ih =>
    obtain ⟨toks, hreads⟩ := ih
    exact ⟨toks, hreads.blanks hbefore hafter⟩

/-- The document in the bytes of a text is the tree of the text, and nothing follows it. -/
theorem ofBytes_of_spells {t : Tree} {cs : List Char} (h : Spells t cs) :
    ofBytes (Utf8.encode cs) = ⟨t, true⟩ := by
  obtain ⟨toks, hreads⟩ := reads_of_spells h
  have hscan : Token.scan (cs.map some) = toks := by
    have hfinish := (hreads.scan []).finish
    rw [List.append_nil, List.reverse_reverse] at hfinish
    exact hfinish
  have hbuild := hreads.build [] .next [] rfl
  rw [List.append_nil] at hbuild
  rw [ofBytes, Utf8.units_encode, hscan]
  exact hbuild

end Document

end Courier.Json
