import TicketPress.Decimal.Digits
import TicketPress.Text.Blank

/-!
# Numbers in a script

A number of a script has 32 bits and is written in decimal or, after `0x`, in
hexadecimal. Leading zeros are allowed, and so is one plus sign before the
digits. A value that does not fit is no number; it is never wrapped.
-/

namespace TicketPress

/-- The value of digits after an optional plus sign. -/
def unsigned? (base : Nat) : List Char → Option Nat
  | '+' :: text => Decimal.read? base text
  | text => Decimal.read? base text

/-- A number that fits 32 bits. -/
def word? (n : Nat) : Option UInt32 := if n < UInt32.size then some (UInt32.ofNat n) else none

/-- The number a text stands for, blanks around it aside. -/
def number? (text : List Char) : Option UInt32 :=
  let value :=
    match Text.trim text with
    | '0' :: 'x' :: digits => unsigned? 16 digits
    | '0' :: 'X' :: digits => unsigned? 16 digits
    | digits => unsigned? 10 digits
  value.bind word?

/-- A number that is read fits 32 bits, and its value is kept. -/
theorem word?_eq_some_iff {n : Nat} {w : UInt32} : word? n = some w ↔ w.toNat = n := by
  constructor
  · intro h
    simp only [word?, Option.ite_none_right_eq_some, Option.some.injEq] at h
    obtain ⟨hlt, rfl⟩ := h
    exact UInt32.toNat_ofNat_of_lt hlt
  · rintro rfl
    simp [word?, w.toNat_lt_size]

end TicketPress
