import Mathlib.Data.List.Forall2

/-!
# Steps that can fail

What is done in steps has a result if every step has one, and else the error of the first step
that fails (`mapM_eq_ok_iff`, `mapM_eq_error_iff`). `FirstWithout` says which of several checks is
the first that does not pass.
-/

namespace Courier

variable {ε ε' α β : Type}

theorem bind_eq_ok_iff {x : Except ε α} {f : α → Except ε β} {b : β} :
    x >>= f = .ok b ↔ ∃ a, x = .ok a ∧ f a = .ok b := by
  cases x <;> simp [bind, Except.bind]

theorem bind_eq_error_iff {x : Except ε α} {f : α → Except ε β} {e : ε} :
    x >>= f = .error e ↔ x = .error e ∨ ∃ a, x = .ok a ∧ f a = .error e := by
  cases x <;> simp [bind, Except.bind]

theorem mapError_eq_ok_iff {x : Except ε α} {f : ε → ε'} {a : α} :
    x.mapError f = .ok a ↔ x = .ok a := by
  cases x with
  | error e => exact iff_of_false nofun nofun
  | ok b => exact Iff.of_eq ((Except.ok.injEq b a).trans (Except.ok.injEq b a).symm)

theorem mapError_eq_error_iff {x : Except ε α} {f : ε → ε'} {e' : ε'} :
    x.mapError f = .error e' ↔ ∃ e, x = .error e ∧ f e = e' := by
  cases x with
  | error e =>
    refine ⟨fun h => ⟨e, rfl, Except.error.inj h⟩, ?_⟩
    rintro ⟨_, h, rfl⟩
    rw [Except.error.inj h]
    rfl
  | ok a => exact iff_of_false nofun nofun

theorem map_eq_ok_iff {x : Except ε α} {f : α → β} {b : β} :
    x.map f = .ok b ↔ ∃ a, x = .ok a ∧ f a = b := by
  cases x <;> simp [Except.map]

theorem map_eq_error_iff {x : Except ε α} {f : α → β} {e : ε} :
    x.map f = .error e ↔ x = .error e := by
  cases x <;> simp [Except.map]

theorem elim_error_eq_ok_iff {x : Option α} {e : ε} {a : α} :
    x.elim (.error e) .ok = Except.ok a ↔ x = some a := by
  cases x <;> simp

theorem elim_error_eq_error_iff {x : Option α} {e e' : ε} :
    x.elim (.error e) .ok = Except.error e' ↔ x = none ∧ e = e' := by
  cases x <;> simp

theorem toOption_eq_some_iff {x : Except ε α} {a : α} : x.toOption = some a ↔ x = .ok a := by
  cases x <;> simp [Except.toOption]

/-- The first in a list that lacks a property. -/
def FirstWithout (p : α → Prop) (xs : List α) (x : α) : Prop :=
  ∃ before after, xs = before ++ x :: after ∧ ¬p x ∧ ∀ y ∈ before, p y

theorem FirstWithout.lacks {p : α → Prop} {xs : List α} {x : α} (h : FirstWithout p xs x) :
    ¬p x := by
  obtain ⟨-, -, -, hx, -⟩ := h
  exact hx

theorem firstWithout_cons_iff {p : α → Prop} {x y : α} {xs : List α} :
    FirstWithout p (x :: xs) y ↔ x = y ∧ ¬p y ∨ p x ∧ FirstWithout p xs y := by
  constructor
  · rintro ⟨_ | ⟨z, before⟩, after, h, hy, hbefore⟩
    · obtain ⟨rfl, -⟩ := List.cons.inj h
      exact .inl ⟨rfl, hy⟩
    · obtain ⟨rfl, rfl⟩ := List.cons.inj h
      obtain ⟨hx, hrest⟩ := List.forall_mem_cons.1 hbefore
      exact .inr ⟨hx, before, after, rfl, hy, hrest⟩
  · rintro (⟨rfl, hy⟩ | ⟨hx, before, after, rfl, hy, hbefore⟩)
    · exact ⟨[], xs, rfl, hy, by simp⟩
    · exact ⟨x :: before, after, rfl, hy, List.forall_mem_cons.2 ⟨hx, hbefore⟩⟩

theorem exists_firstWithout_iff {p : α → Prop} {xs : List α} :
    (∃ x, FirstWithout p xs x) ↔ ∃ x ∈ xs, ¬p x := by
  induction xs with
  | nil => simp [FirstWithout]
  | cons x xs ih =>
    simp only [firstWithout_cons_iff, List.mem_cons, exists_eq_or_imp, ← ih]
    constructor
    · rintro ⟨y, ⟨rfl, hy⟩ | ⟨-, hy⟩⟩
      · exact .inl hy
      · exact .inr ⟨y, hy⟩
    · rintro (hx | ⟨y, hy⟩)
      · exact ⟨x, .inl ⟨rfl, hx⟩⟩
      · by_cases hx : p x
        · exact ⟨y, .inr ⟨hx, hy⟩⟩
        · exact ⟨x, .inl ⟨rfl, hx⟩⟩

/-- A list of steps has results if each of them has one. -/
theorem mapM_eq_ok_iff {f : α → Except ε β} : ∀ {xs : List α} {ys : List β},
    xs.mapM f = .ok ys ↔ List.Forall₂ (fun x y => f x = .ok y) xs ys
  | [], ys => by simp [pure, Except.pure, eq_comm]
  | x :: xs, ys => by
    simp only [List.mapM_cons, bind_eq_ok_iff, mapM_eq_ok_iff, List.forall₂_cons_left_iff, pure,
      Except.pure, Except.ok.injEq]
    constructor
    · rintro ⟨y, hy, ys, hys, rfl⟩
      exact ⟨y, ys, hy, hys, rfl⟩
    · rintro ⟨y, ys, hy, hys, rfl⟩
      exact ⟨y, hy, ys, hys, rfl⟩

theorem exists_mapM_iff {f : α → Except ε β} {xs : List α} :
    (∃ ys, xs.mapM f = .ok ys) ↔ ∀ x ∈ xs, ∃ y, f x = .ok y := by
  induction xs with
  | nil => simp [pure, Except.pure]
  | cons x xs ih =>
    rw [List.forall_mem_cons, ← ih]
    simp only [List.mapM_cons, bind_eq_ok_iff, pure, Except.pure, Except.ok.injEq]
    constructor
    · rintro ⟨_, y, hy, ys, hys, -⟩
      exact ⟨⟨y, hy⟩, ys, hys⟩
    · rintro ⟨⟨y, hy⟩, ys, hys⟩
      exact ⟨_, y, hy, ys, hys, rfl⟩

/-- A list of steps fails as the first of them that does. -/
theorem mapM_eq_error_iff {f : α → Except ε β} {e : ε} : ∀ {xs : List α},
    xs.mapM f = .error e ↔ ∃ x, FirstWithout (fun x => ∃ y, f x = .ok y) xs x ∧ f x = .error e
  | [] => by simp [FirstWithout, pure, Except.pure]
  | x :: xs => by
    simp only [List.mapM_cons, bind_eq_error_iff, mapM_eq_error_iff, firstWithout_cons_iff, pure,
      Except.pure, reduceCtorEq, and_false, exists_false, or_false]
    constructor
    · rintro (hx | ⟨y, hy, z, hz, he⟩)
      · exact ⟨x, .inl ⟨rfl, by simp [hx]⟩, hx⟩
      · exact ⟨z, .inr ⟨⟨y, hy⟩, hz⟩, he⟩
    · rintro ⟨z, ⟨rfl, -⟩ | ⟨⟨y, hy⟩, hz⟩, he⟩
      · exact .inl he
      · exact .inr ⟨y, hy, z, hz, he⟩

/-- If a result means that every check passes, and an error that one does not, there is a result
exactly if every check passes. -/
theorem exists_ok_iff_forall {x : Except ε α} {p : β → Prop} (hok : ∀ a, x = .ok a → ∀ y, p y)
    (herror : ∀ e, x = .error e → ∃ y, ¬p y) : (∃ a, x = .ok a) ↔ ∀ y, p y := by
  constructor
  · rintro ⟨a, ha⟩
    exact hok a ha
  · intro h
    cases hx : x with
    | ok a => exact ⟨a, rfl⟩
    | error e =>
      obtain ⟨y, hy⟩ := herror e hx
      exact absurd (h y) hy

end Courier
