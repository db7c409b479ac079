import Courier.Proofs.Json.PrefixFree
import Courier.Proofs.Json.Read

/-!
# The text of a value is one line

Numbers and brackets have no control characters, and a string literal has none because it writes
each that the string has by others (`printed_escapeChar`). So there is none in the text of a value,
whatever is in its strings and keys (`Value.printed_render`), and no line end
(`Value.notMem_toText`).
-/

namespace Courier.Json

/-- There are no control characters in the text. -/
def Printed (cs : List Char) : Prop :=
  ∀ c ∈ cs, 0x20 ≤ c.toNat

instance (cs : List Char) : Decidable (Printed cs) :=
  List.decidableBAll (fun c : Char => 0x20 ≤ c.toNat) cs

variable {c : Char} {cs ds : List Char}

theorem Printed.cons (hc : 0x20 ≤ c.toNat) (h : Printed cs) : Printed (c :: cs) :=
  List.forall_mem_cons.2 ⟨hc, h⟩

theorem Printed.append (h : Printed cs) (h' : Printed ds) : Printed (cs ++ ds) :=
  List.forall_mem_append.2 ⟨h, h'⟩

theorem le_digitChar {n : Nat} (h : n < 16) : 0x20 ≤ (Nat.digitChar n).toNat :=
  (by decide : ∀ i : Fin 16, 0x20 ≤ (Nat.digitChar i).toNat) ⟨n, h⟩

/-- Control characters are written by others. -/
theorem printed_escapeChar (c : Char) : Printed (escapeChar c) := by
  unfold escapeChar
  split
  case h_8 =>
    split
    · next hc =>
      have hdigits : Printed [Nat.digitChar (c.toNat / 16), Nat.digitChar (c.toNat % 16)] := by
        simp [Printed, le_digitChar (show c.toNat / 16 < 16 by omega),
          le_digitChar (show c.toNat % 16 < 16 by omega)]
      have hmark : Printed ['\\', 'u', '0', '0'] := by decide
      exact hmark.append hdigits
    · next hc => simpa [Printed] using hc
  all_goals decide

theorem printed_renderText (s : String) : Printed (renderText s) := by
  have hescaped : Printed (s.toList.flatMap escapeChar) := by
    intro c hc
    obtain ⟨d, -, hd⟩ := List.mem_flatMap.1 hc
    exact printed_escapeChar d c hd
  exact (hescaped.append (by decide)).cons (by decide)

theorem le_of_isNumeral (h : Double.isNumeral c = true) : 0x20 ≤ c.toNat := by
  simp only [Double.isNumeral, Bool.or_eq_true, beq_iff_eq] at h
  obtain (((h | rfl) | rfl) | rfl) | rfl := h
  · have hzero : 48 ≤ c.toNat := (Char.isDigit_iff_toNat.1 h).1
    omega
  all_goals decide

theorem printed_number (n : Number) : Printed n.render := by
  by_cases h : (Value.num n).Finite
  · exact fun c hc => le_of_isNumeral (n.isNumeral_of_mem_render h hc)
  · cases n with
    | int i => exact absurd trivial h
    | double d =>
      have hd : ¬d.isFinite = true := h
      rw [Number.render, if_neg hd]
      decide

namespace Value

mutual

/-- The text of a value has no control characters. -/
theorem printed_render : ∀ v : Value, Printed v.render
  | .null => by decide
  | .bool true => by decide
  | .bool false => by decide
  | .num n => printed_number n
  | .str s => printed_renderText s
  | .arr [] => by decide
  | .arr (v :: rest) => ((printed_render v).append (printed_renderItems rest)).cons (by decide)
  | .obj [] => by decide
  | .obj ((k, v) :: rest) => ((printed_renderText k).append
      (((printed_render v).append (printed_renderMembers rest)).cons (by decide))).cons (by decide)

theorem printed_renderItems : ∀ vs : List Value, Printed (renderItems vs)
  | [] => by decide
  | v :: rest => ((printed_render v).append (printed_renderItems rest)).cons (by decide)

theorem printed_renderMembers : ∀ ms : List (String × Value), Printed (renderMembers ms)
  | [] => by decide
  | (k, v) :: rest => ((printed_renderText k).append
      (((printed_render v).append (printed_renderMembers rest)).cons (by decide))).cons (by decide)

end

theorem notMem_toText (v : Value) (hc : c.toNat < 0x20) : c ∉ v.toText.toList := by
  rw [toText, String.toList_ofList]
  exact fun h => absurd (printed_render v c h) (by omega)

end Value

end Courier.Json
