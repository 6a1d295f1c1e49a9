/-!
# Positional digits

Reading and writing natural numbers in a base up to sixteen. A reader answers
only for a run of digits that is not empty and holds nothing else; it has no
bound of its own, so a caller that has one applies it to the value and never
to a wrapped remainder.
-/

namespace TicketPress.Decimal

/-- The value of one digit in the base; letters count from ten, in either
case. -/
def digit? (base : Nat) (c : Char) : Option Nat :=
  let value :=
    if '0' ≤ c ∧ c ≤ '9' then c.toNat - '0'.toNat
    else if 'a' ≤ c ∧ c ≤ 'z' then c.toNat - 'a'.toNat + 10
    else if 'A' ≤ c ∧ c ≤ 'Z' then c.toNat - 'A'.toNat + 10
    else base
  if value < base then some value else none

theorem digit?_lt {base : Nat} {c : Char} {d : Nat} (h : digit? base c = some d) : d < base := by
  simp only [digit?, Option.ite_none_right_eq_some, Option.some.injEq] at h
  exact h.2 ▸ h.1

/-- The digits read on from a value already read. -/
def readFrom? (base : Nat) : (value : Nat) → List Char → Option Nat
  | value, [] => some value
  | value, c :: text => (digit? base c).bind fun d => readFrom? base (value * base + d) text

/-- The value of a run of digits; nothing for an empty run or another
character. -/
def read? (base : Nat) (text : List Char) : Option Nat :=
  if text = [] then none else readFrom? base 0 text

/-- The decimal digits of a number, without leading zeros. -/
def write (n : Nat) : List Char := Nat.toDigits 10 n

/-- The hexadecimal digits of a number in capitals, at least two of them. -/
def writeHex (n : Nat) : List Char :=
  let digits := (Nat.toDigits 16 n).map Char.toUpper
  List.replicate (2 - digits.length) '0' ++ digits

/-- The decimal digits of an integer, after a minus sign if it is negative. -/
def writeInt (i : Int) : List Char :=
  if i < 0 then '-' :: write i.natAbs else write i.natAbs

end TicketPress.Decimal
