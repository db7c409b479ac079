import Courier.Proofs.Text.Parts
import Courier.Url.Address
import Mathlib.Algebra.Group.Nat.Defs
import Mathlib.Data.List.Induction
import Mathlib.Tactic.SplitIfs

/-!
# Numeric hosts and their texts

The digits of a number read as that number (`numberIn?_toDigits`), and a numeral is below the power
of its base that has as many zeros as it has digits (`numberIn?_lt`). From the one, an IPv4 or IPv6
address is read off its text (`ipv4?_renderIpv4`, `ipv6?_renderIpv6`); from the other, what reads as
an address has a text at all (`ipv4?_lt`, `ipv6?_groups`). The run of zeros that the text of an IPv6
address leaves out is the only place of a double colon in it (`splitDouble?_joinGroups`).
-/

namespace Courier.Url

/-! ## Parts -/

theorem splitParts_eq_splitOn (sep : Char) (cs : List Char) :
    splitParts sep cs = cs.splitOn sep :=
  Text.eq_splitOn rfl (fun _ _ => rfl) cs

variable {c : Char} {cs : List Char}

theorem mapM_cons_eq_some {α β : Type} {f : α → Option β} {x : α} {xs : List α} {ys : List β} :
    (x :: xs).mapM f = some ys ↔
      ∃ y, f x = some y ∧ ∃ ys', xs.mapM f = some ys' ∧ y :: ys' = ys := by
  simp only [List.mapM_cons, Option.bind_eq_bind, Option.bind_eq_some_iff, Option.pure_def,
    Option.some.injEq]

/-- The values of parts that all have one, each that of a part. -/
theorem exists_of_mem_mapM {α β : Type} {f : α → Option β} {xs : List α} {ys : List β}
    (h : xs.mapM f = some ys) {y : β} (hy : y ∈ ys) : ∃ x ∈ xs, f x = some y := by
  induction xs generalizing ys with
  | nil =>
    cases h
    cases hy
  | cons x xs ih =>
    obtain ⟨y', hy', ys', hys', rfl⟩ := mapM_cons_eq_some.1 h
    rcases List.mem_cons.1 hy with rfl | hy
    · exact ⟨x, List.mem_cons_self, hy'⟩
    · obtain ⟨x', hx', heq⟩ := ih hys' hy
      exact ⟨x', List.mem_cons_of_mem x hx', heq⟩

/-- The values of parts whose only value is the part itself. -/
theorem eq_of_mapM {α : Type} {f : α → Option α} {xs ys : List α}
    (h : ∀ x ∈ xs, ∀ y, f x = some y → y = x) (hm : xs.mapM f = some ys) : ys = xs := by
  induction xs generalizing ys with
  | nil =>
    cases hm
    rfl
  | cons x xs ih =>
    obtain ⟨y, hy, ys', hys', rfl⟩ := mapM_cons_eq_some.1 hm
    rw [h x List.mem_cons_self y hy, ih (fun z hz => h z (List.mem_cons_of_mem x hz)) hys']

/-! ## Numerals -/

variable {base : Nat}

theorem numberIn?_concat (base : Nat) (cs : List Char) (c : Char) :
    numberIn? base (cs ++ [c]) =
      (numberIn? base cs).bind fun n => (digitValue? c).bind fun d =>
        if d < base then some (base * n + d) else none := by
  rw [numberIn?, List.foldl_append, ← numberIn?]
  cases hn : numberIn? base cs <;> cases hd : digitValue? c <;> simp [hd]

theorem digitValue?_digitChar : ∀ n < 16, digitValue? (Nat.digitChar n) = some n := by
  decide

/-- The digits of a number read as the number. -/
theorem numberIn?_toDigits (hb : 1 < base) (hb' : base ≤ 16) (n : Nat) :
    numberIn? base (Nat.toDigits base n) = some n := by
  induction n using Nat.strongRecOn with
  | _ n ih =>
    rcases Nat.lt_or_ge n base with hlt | hge
    · have hd := digitValue?_digitChar n (Nat.lt_of_lt_of_le hlt hb')
      rw [Nat.toDigits_of_lt_base hlt, ← List.nil_append [_], numberIn?_concat]
      simp [numberIn?, hd, hlt]
    · have hmod : n % base < base := Nat.mod_lt _ (by omega)
      have hd := digitValue?_digitChar _ (Nat.lt_of_lt_of_le hmod hb')
      rw [Nat.toDigits_of_base_le hb hge, numberIn?_concat,
        ih _ (Nat.div_lt_self (by omega) hb)]
      simp [hd, hmod, Nat.div_add_mod]

theorem numberIn?_lt {n : Nat} (h : numberIn? base cs = some n) : n < base ^ cs.length := by
  induction cs using List.reverseRecOn generalizing n with
  | nil =>
    cases h
    exact Nat.one_pos
  | append_singleton cs c ih =>
    rw [numberIn?_concat] at h
    obtain ⟨m, hm, h⟩ := Option.bind_eq_some_iff.1 h
    obtain ⟨d, -, h⟩ := Option.bind_eq_some_iff.1 h
    split at h
    · next hd =>
      have hlt : base * (m + 1) ≤ base * base ^ cs.length := Nat.mul_le_mul_left base (ih hm)
      cases h
      rw [List.length_append, List.length_singleton, Nat.pow_succ']
      calc base * m + d < base * (m + 1) := by rw [Nat.mul_succ]; omega
        _ ≤ base * base ^ cs.length := hlt
    · cases h

theorem of_mem_toDigits (hb : 1 < base) {n : Nat} (h : c ∈ Nat.toDigits base n) :
    ∃ d < base, c = Nat.digitChar d := by
  induction n using Nat.strongRecOn with
  | _ n ih =>
    rcases Nat.lt_or_ge n base with hlt | hge
    · rw [Nat.toDigits_of_lt_base hlt] at h
      exact ⟨n, hlt, List.mem_singleton.1 h⟩
    · rw [Nat.toDigits_of_base_le hb hge] at h
      rcases List.mem_append.1 h with h | h
      · exact ih _ (Nat.div_lt_self (by omega) hb) h
      · exact ⟨n % base, Nat.mod_lt _ (by omega), List.mem_singleton.1 h⟩

/-- The digits of a number start with a zero only if there is no other. -/
theorem toDigits_ne_zero_cons (hb : 1 < base) {n : Nat} (hn : 0 < n) (cs : List Char) :
    Nat.toDigits base n ≠ '0' :: cs := by
  induction n using Nat.strongRecOn generalizing cs with
  | _ n ih =>
    rcases Nat.lt_or_ge n base with hlt | hge
    · rw [Nat.toDigits_of_lt_base hlt]
      intro h
      have hzero := Nat.digitChar_eq_zero.1 (List.cons.inj h).1
      omega
    · obtain ⟨d, ds, hds⟩ := List.exists_cons_of_ne_nil (@Nat.toDigits_ne_nil (n / base) base)
      have hhead := ih _ (Nat.div_lt_self (by omega) hb) (Nat.div_pos hge (by omega)) ds
      rw [Nat.toDigits_of_base_le hb hge, hds]
      intro h
      rw [hds, (List.cons.inj h).1] at hhead
      exact hhead rfl

theorem not_mem_toDigits (hb : 1 < base) (hb' : base ≤ 16) (hc : ∀ d < 16, c ≠ Nat.digitChar d)
    (n : Nat) : c ∉ Nat.toDigits base n := by
  intro h
  obtain ⟨d, hd, heq⟩ := of_mem_toDigits hb h
  exact hc d (Nat.lt_of_lt_of_le hd hb') heq

/-! ## IPv4 -/

theorem hostParts_intercalate {parts : List (List Char)}
    (h : ∀ part ∈ parts, '.' ∉ part ∧ part ≠ []) (hne : parts ≠ []) :
    hostParts (['.'].intercalate parts) = parts := by
  rw [hostParts, splitParts_eq_splitOn,
    List.splitOn_intercalate '.' (fun part hp => (h part hp).1) hne, if_neg]
  intro hlast
  exact (h [] (List.mem_of_getLast? hlast)).2 rfl

theorem ipv4Part?_toDigits (n : Nat) : ipv4Part? (Nat.toDigits 10 n) = some n := by
  rcases Nat.eq_zero_or_pos n with rfl | hn
  · decide
  · have hhead := toDigits_ne_zero_cons (by decide : 1 < 10) hn
    unfold ipv4Part?
    split
    · exact absurd ‹_› Nat.toDigits_ne_nil
    · exact absurd ‹_› (hhead _)
    · exact absurd ‹_› (hhead _)
    · exact absurd ‹_› (hhead _)
    · exact absurd ‹_› (hhead _)
    · exact numberIn?_toDigits (by decide) (by decide) n

theorem renderIpv4_eq (n : Nat) : renderIpv4 n = ['.'].intercalate
    ([n / 0x1000000, n / 0x10000 % 0x100, n / 0x100 % 0x100, n % 0x100].map (Nat.toDigits 10)) := by
  simp [renderIpv4, List.intercalate]

theorem hostParts_renderIpv4 (n : Nat) : hostParts (renderIpv4 n) =
    [n / 0x1000000, n / 0x10000 % 0x100, n / 0x100 % 0x100, n % 0x100].map (Nat.toDigits 10) := by
  rw [renderIpv4_eq]
  refine hostParts_intercalate (fun part hpart => ?_) (by simp)
  obtain ⟨m, -, rfl⟩ := List.mem_map.1 hpart
  exact ⟨not_mem_toDigits (by decide) (by decide) (by decide) m, Nat.toDigits_ne_nil⟩

theorem endsInNumber_renderIpv4 (n : Nat) : endsInNumber (renderIpv4 n) = true := by
  rw [endsInNumber, hostParts_renderIpv4]
  obtain ⟨d, ds, hds⟩ := List.exists_cons_of_ne_nil (@Nat.toDigits_ne_nil (n % 0x100) 10)
  have hpart := ipv4Part?_toDigits (n % 0x100)
  simp only [List.map_cons, List.map_nil, List.getLast?_cons_cons, List.getLast?_singleton]
  rw [hds] at hpart ⊢
  simp [hpart]

theorem ipv4?_renderIpv4 {n : Nat} (h : n < 256 ^ 4) : ipv4? (renderIpv4 n) = some n := by
  have hparts : (hostParts (renderIpv4 n)).mapM ipv4Part? =
      some [n / 0x1000000, n / 0x10000 % 0x100, n / 0x100 % 0x100, n % 0x100] := by
    simp [hostParts_renderIpv4, ipv4Part?_toDigits]
  simp only [ipv4?, hparts, List.reverse_cons, List.reverse_nil, List.nil_append, List.cons_append,
    List.length_cons, List.length_nil, List.any_cons, List.any_nil, List.foldl_cons, List.foldl_nil]
  simp
  omega

theorem foldl_bytes_lt {bs : List Nat} (h : ∀ b ∈ bs, b ≤ 255) (acc : Nat) :
    bs.foldl (fun n b => 256 * n + b) acc < 256 ^ bs.length * (acc + 1) := by
  induction bs generalizing acc with
  | nil => simp
  | cons b bs ih =>
    have hb := h b List.mem_cons_self
    calc (b :: bs).foldl (fun n b => 256 * n + b) acc
        < 256 ^ bs.length * (256 * acc + b + 1) :=
          ih (fun d hd => h d (List.mem_cons_of_mem b hd)) (256 * acc + b)
      _ ≤ 256 ^ bs.length * (256 * (acc + 1)) := Nat.mul_le_mul_left _ (by omega)
      _ = 256 ^ (b :: bs).length * (acc + 1) := by
          rw [List.length_cons, Nat.pow_succ, Nat.mul_assoc]

theorem ipv4?_lt {host : List Char} {n : Nat} (h : ipv4? host = some n) : n < 256 ^ 4 := by
  simp only [ipv4?] at h
  split at h
  · cases h
  split at h
  · cases h
  next last init _ =>
  split_ifs at h with hlen hany hlast
  have hinit : ∀ b ∈ init.reverse, b ≤ 255 := by
    simpa using hany
  have hfold := foldl_bytes_lt hinit 0
  rw [List.length_reverse, Nat.zero_add, Nat.mul_one] at hfold
  obtain rfl := Option.some.inj h
  calc init.reverse.foldl (fun n b => 256 * n + b) 0 * 256 ^ (4 - init.length) + last
      < (init.reverse.foldl (fun n b => 256 * n + b) 0 + 1) * 256 ^ (4 - init.length) := by
        rw [Nat.succ_mul]
        exact Nat.add_lt_add_left (Nat.not_le.1 hlast) _
    _ ≤ 256 ^ init.length * 256 ^ (4 - init.length) := Nat.mul_le_mul_right _ hfold
    _ = 256 ^ 4 := by rw [← Nat.pow_add, Nat.add_sub_cancel' (by omega)]

/-! ## IPv6 -/

/-- The groups of an address, each of four hexadecimal digits at most. -/
def Groups (groups : List Nat) : Prop :=
  ∀ g ∈ groups, g < 16 ^ 4

theorem Groups.append {groups groups' : List Nat} (h : Groups groups) (h' : Groups groups') :
    Groups (groups ++ groups') :=
  fun g hg => (List.mem_append.1 hg).elim (h g) (h' g)

theorem ipv6Group?_toDigits {g : Nat} (h : g < 16 ^ 4) :
    ipv6Group? (Nat.toDigits 16 g) = some [g] := by
  have hlen := (Nat.length_toDigits_le_iff (by decide : 1 < 16) (by decide : 0 < 4)).2 h
  have hne : (Nat.toDigits 16 g).isEmpty = false := by
    simp [List.isEmpty_eq_false_iff]
  rw [ipv6Group?, hne, numberIn?_toDigits (by decide) (by decide)]
  simp [hlen]

theorem ipv6Groups?_toDigits (dotted : Bool) :
    ∀ {groups : List Nat}, Groups groups →
      ipv6Groups? dotted (groups.map (Nat.toDigits 16)) = some groups
  | [], _ => rfl
  | [g], h => by
    have hdot : '.' ∉ Nat.toDigits 16 g :=
      not_mem_toDigits (by decide) (by decide) (by decide) g
    rw [List.map_singleton, ipv6Groups?, if_neg (by simp [hdot]),
      ipv6Group?_toDigits (h g List.mem_cons_self)]
  | g :: g' :: groups, h => by
    have hrest : ipv6Groups? dotted ((g' :: groups).map (Nat.toDigits 16)) = some (g' :: groups) :=
      ipv6Groups?_toDigits dotted fun d hd => h d (List.mem_cons_of_mem g hd)
    rw [List.map_cons] at hrest
    rw [List.map_cons, List.map_cons, ipv6Groups?, ipv6Group?_toDigits (h g List.mem_cons_self),
      hrest]
    · rfl
    · exact List.cons_ne_nil _ _

theorem colon_not_mem_hex (n : Nat) : ':' ∉ Nat.toDigits 16 n :=
  not_mem_toDigits (by decide) (by decide) (by decide) n

theorem joinGroups_cons_cons (g g' : Nat) (groups : List Nat) :
    joinGroups (g :: g' :: groups) = Nat.toDigits 16 g ++ ':' :: joinGroups (g' :: groups) := by
  rw [joinGroups, List.map_cons, List.map_cons, List.intercalate_cons_cons, List.append_assoc]
  rfl

theorem joinGroups_singleton (g : Nat) : joinGroups [g] = Nat.toDigits 16 g :=
  List.intercalate_singleton

theorem joinGroups_cons (g : Nat) (groups : List Nat) :
    ∃ c cs, joinGroups (g :: groups) = c :: cs ∧ c ≠ ':' := by
  obtain ⟨c, cs, hcs⟩ := List.exists_cons_of_ne_nil (@Nat.toDigits_ne_nil g 16)
  have hc : c ≠ ':' := by
    rintro rfl
    exact colon_not_mem_hex g (hcs ▸ List.mem_cons_self)
  cases groups with
  | nil => exact ⟨c, cs, joinGroups_singleton g ▸ hcs, hc⟩
  | cons g' groups => exact ⟨c, _, by rw [joinGroups_cons_cons, hcs, List.cons_append], hc⟩

theorem ipv6Side?_joinGroups (dotted : Bool) {groups : List Nat} (h : Groups groups) :
    ipv6Side? dotted (joinGroups groups) = some groups := by
  cases groups with
  | nil => rfl
  | cons g groups =>
    have hsplit : splitParts ':' (joinGroups (g :: groups)) =
        (g :: groups).map (Nat.toDigits 16) := by
      rw [splitParts_eq_splitOn]
      refine List.splitOn_intercalate ':' (fun part hpart => ?_) (by simp)
      obtain ⟨m, -, rfl⟩ := List.mem_map.1 hpart
      exact colon_not_mem_hex m
    obtain ⟨c, cs, hcs, -⟩ := joinGroups_cons g groups
    rw [ipv6Side?, hsplit, ipv6Groups?_toDigits dotted h, hcs, if_neg (by simp)]

/-- A double colon starts neither with another character nor with a single colon. -/
theorem splitDouble?_cons (h : c ≠ ':' ∨ ∀ rest, cs ≠ ':' :: rest) :
    splitDouble? (c :: cs) = (splitDouble? cs).map fun p => (c :: p.1, p.2) := by
  rw [splitDouble?]
  rintro rest rfl rfl
  exact h.elim (absurd rfl) fun hcs => hcs rest rfl

theorem splitDouble?_append (h : ':' ∉ cs) (rest : List Char) :
    splitDouble? (cs ++ rest) = (splitDouble? rest).map fun p => (cs ++ p.1, p.2) := by
  induction cs with
  | nil => simp
  | cons c cs ih =>
    rw [List.mem_cons, not_or] at h
    rw [List.cons_append, splitDouble?_cons (.inl (Ne.symm h.1)), ih h.2, Option.map_map]
    rfl

/-- Groups hold no double colon, nor part of one but for the one behind them. -/
theorem splitDouble?_joinGroups (rest : List Char) :
    ∀ groups : List Nat, splitDouble? (joinGroups groups ++ rest) =
      (splitDouble? rest).map fun p => (joinGroups groups ++ p.1, p.2)
  | [] => by simp [joinGroups]
  | [g] => by
    rw [joinGroups_singleton, splitDouble?_append (colon_not_mem_hex g)]
  | g :: g' :: groups => by
    obtain ⟨c, cs, hcs, hc⟩ := joinGroups_cons g' groups
    have hcolon : ∀ rest', c :: cs ++ rest ≠ ':' :: rest' := fun _ h => hc (List.cons.inj h).1
    rw [joinGroups_cons_cons, List.append_assoc,
      splitDouble?_append (colon_not_mem_hex g), List.cons_append,
      hcs, splitDouble?_cons (.inr hcolon), ← hcs, splitDouble?_joinGroups rest (g' :: groups),
      Option.map_map, Option.map_map]
    congr 1
    funext p
    simp

theorem zeroRun_spec : ∀ groups : List Nat,
    ∃ right, groups = List.replicate (zeroRun groups) 0 ++ right
  | [] => ⟨[], rfl⟩
  | 0 :: groups => by
    obtain ⟨right, hright⟩ := zeroRun_spec groups
    refine ⟨right, ?_⟩
    rw [zeroRun, List.replicate_succ, List.cons_append, ← hright]
  | (g + 1) :: groups => ⟨(g + 1) :: groups, rfl⟩

/-- The run that is left out is one of zeros, with the groups before and after it. -/
theorem longestZeros_spec (i : Nat) (groups : List Nat) :
    ∃ left right, groups = left ++ (List.replicate (longestZeros i groups).2 0 ++ right) ∧
      (longestZeros i groups).1 = i + left.length := by
  induction groups generalizing i with
  | nil => exact ⟨[], [], rfl, rfl⟩
  | cons g groups ih =>
    rw [longestZeros]
    split
    · obtain ⟨right, hright⟩ := zeroRun_spec (g :: groups)
      exact ⟨[], right, hright, rfl⟩
    · obtain ⟨left, right, hgroups, hstart⟩ := ih (i + 1)
      refine ⟨g :: left, right, congrArg (g :: ·) hgroups, ?_⟩
      rw [hstart, List.length_cons]
      omega

/-- An IPv6 address is read off its text. -/
theorem ipv6?_renderIpv6 {groups : List Nat} (h : Groups groups) (hlen : groups.length = 8) :
    ipv6? (renderIpv6 groups) = some groups := by
  obtain ⟨left, right, hgroups, hstart⟩ := longestZeros_spec 0 groups
  rw [renderIpv6]
  split
  · have hnone : splitDouble? (joinGroups groups) = none := by
      simpa [splitDouble?] using splitDouble?_joinGroups [] groups
    simp [ipv6?, hnone, ipv6Side?_joinGroups true h, hlen]
  · next hrun =>
    generalize (longestZeros 0 groups).2 = k at *
    subst hgroups
    have hleft : Groups left := fun g hg => h g (by simp [hg])
    have hright : Groups right := fun g hg => h g (by simp [hg])
    have hsplit := splitDouble?_joinGroups (':' :: ':' :: joinGroups right) left
    rw [splitDouble?] at hsplit
    simp only [List.length_append, List.length_replicate] at hlen
    simp [hstart, ipv6?, hsplit, ipv6Side?_joinGroups, hleft, hright]
    omega

theorem ipv6Group?_groups {groups : List Nat} (h : ipv6Group? cs = some groups) :
    Groups groups := by
  rw [ipv6Group?] at h
  split at h
  · cases h
  next hlen =>
  obtain ⟨n, hn, rfl⟩ := Option.map_eq_some_iff.1 h
  intro g hg
  obtain rfl := List.mem_singleton.1 hg
  calc g < 16 ^ cs.length := numberIn?_lt hn
    _ ≤ 16 ^ 4 := Nat.pow_le_pow_right (by decide) (by simp at hlen; omega)

theorem ipv6Decimal?_lt {n : Nat} (h : ipv6Decimal? cs = some n) : n < 256 := by
  unfold ipv6Decimal? at h
  split at h
  · cases h
  · cases h
  · split at h
    · cases h
    · split at h
      · next hn =>
        cases h
        exact hn
      · cases h

theorem ipv6Dotted?_groups {groups : List Nat} (h : ipv6Dotted? cs = some groups) :
    Groups groups := by
  rw [ipv6Dotted?] at h
  split at h
  · next a b c d hparts =>
    have hlt : ∀ n ∈ [a, b, c, d], n < 256 := fun n hn => by
      obtain ⟨part, -, hpart⟩ := exists_of_mem_mapM hparts hn
      exact ipv6Decimal?_lt hpart
    have ha := hlt a (by simp)
    have hb := hlt b (by simp)
    have hc := hlt c (by simp)
    have hd := hlt d (by simp)
    cases h
    intro g hg
    simp only [List.mem_cons, List.not_mem_nil, or_false] at hg
    omega
  · cases h

theorem ipv6Groups?_groups {dotted : Bool} : ∀ {parts : List (List Char)} {groups : List Nat},
    ipv6Groups? dotted parts = some groups → Groups groups
  | [], _, h => by
    cases h
    exact fun g hg => absurd hg List.not_mem_nil
  | [part], _, h => by
    rw [ipv6Groups?] at h
    split at h
    · exact ipv6Dotted?_groups h
    · exact ipv6Group?_groups h
  | part :: part' :: parts, _, h => by
    rw [ipv6Groups?] at h
    · split at h
      · next a b ha hb =>
        cases h
        exact (ipv6Group?_groups ha).append (ipv6Groups?_groups hb)
      · cases h
    · exact List.cons_ne_nil _ _

theorem ipv6Side?_groups {dotted : Bool} {groups : List Nat}
    (h : ipv6Side? dotted cs = some groups) : Groups groups := by
  rw [ipv6Side?] at h
  split at h
  · cases h
    exact fun g hg => absurd hg List.not_mem_nil
  · exact ipv6Groups?_groups h

/-- What reads as an IPv6 address has eight groups. -/
theorem ipv6?_groups {groups : List Nat} (h : ipv6? cs = some groups) :
    Groups groups ∧ groups.length = 8 := by
  rw [ipv6?] at h
  split at h
  · split at h
    · next hside =>
      split at h
      · next hlen =>
        cases h
        exact ⟨ipv6Side?_groups hside, hlen⟩
      · cases h
    · cases h
  · split at h
    · next a b ha hb =>
      split at h
      · cases h
        have hzeros : ∀ k, Groups (List.replicate k 0) := fun k g hg => by
          rw [List.eq_of_mem_replicate hg]
          decide
        refine ⟨((ipv6Side?_groups ha).append (hzeros _)).append (ipv6Side?_groups hb), ?_⟩
        simp only [List.length_append, List.length_replicate]
        omega
      · cases h
    · cases h

end Courier.Url
