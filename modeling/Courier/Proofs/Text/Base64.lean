import Courier.Text.Base64

/-!
# Reading back what is written in base64

Each digit is read back (`digit?_digitChar`), and three bytes are the quotients and remainders that
their four digits are made of. Hence written bytes are read back, whatever number of them is left
over for the last group (`decode?_encode`).
-/

namespace Courier.Base64

/-- Each digit is read back. -/
theorem digit?_digitChar {d : Nat} (h : d < 64) : digit? (digitChar d) = some d := by
  have hall : ∀ d < 64, digit? (digitChar d) = some d := by decide +kernel
  exact hall d h

/-- What fills a group up is no digit. -/
theorem digit?_pad : digit? '=' = none := by
  decide

/-- A byte is the number that its digits make up. -/
theorem ofNat_of_eq {a : UInt8} {n : Nat} (h : n = a.toNat) : UInt8.ofNat n = a := by
  rw [h, UInt8.ofNat_toNat]

/-- The bytes of a text that they are written as. -/
theorem decode?_encode : ∀ bytes : List UInt8, decode? (encode bytes) = some bytes
  | [] => rfl
  | [a] => by
    have ha := a.toNat_lt
    simp only [encode, decode?]
    rw [digit?_digitChar (by omega), digit?_digitChar (by omega), digit?_pad]
    simp only [and_self, if_true]
    rw [ofNat_of_eq (a := a) (by omega)]
  | [a, b] => by
    have ha := a.toNat_lt
    have hb := b.toNat_lt
    simp only [encode, decode?]
    rw [digit?_digitChar (by omega), digit?_digitChar (by omega), digit?_digitChar (by omega),
      digit?_pad]
    simp only [and_self, if_true]
    rw [ofNat_of_eq (a := a) (by omega), ofNat_of_eq (a := b) (by omega)]
  | a :: b :: c :: rest => by
    have ha := a.toNat_lt
    have hb := b.toNat_lt
    have hc := c.toNat_lt
    simp only [encode, decode?]
    rw [digit?_digitChar (by omega), digit?_digitChar (by omega), digit?_digitChar (by omega),
      digit?_digitChar (by omega), decode?_encode rest]
    simp only [Option.map_some]
    rw [ofNat_of_eq (a := a) (by omega), ofNat_of_eq (a := b) (by omega),
      ofNat_of_eq (a := c) (by omega)]

end Courier.Base64
