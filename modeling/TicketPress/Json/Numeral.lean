import TicketPress.Json.Fault

/-!
# What a numeral means

A numeral of a document is kept digit by digit, and its number is worked out
only when something asks for it: a value that nobody asks for may be as large
as it likes.

An integer of 64 bits means itself. Every other numeral means a float, found
with one scaling step: as many leading digits as fit into 64 bits are taken as
a whole number, the rest is cut off, and the result is multiplied or divided
by one power of ten. That is the nearest float for numerals of up to fifteen
digits with a small exponent, and at most a few units in the last place away
from it otherwise.
-/

namespace TicketPress.Json

/-- A numeral as it was written. -/
structure Numeral where
  negative : Bool
  /-- The digits before the point. -/
  whole : List Nat
  /-- The digits after the point; none if there is no point. -/
  fraction : List Nat
  /-- The value of the exponent, if one was written. -/
  exponent : Option Int
  deriving Repr, DecidableEq

/-- The largest unsigned integer of a document. -/
def largest : Nat := UInt64.size - 1

/-- Reads digits on from `value` as long as the result fits into 64 bits, and
gives the digits that were left over. -/
def gather : (value : Nat) → List Nat → Nat × List Nat
  | value, [] => (value, [])
  | value, d :: digits =>
    if value * 10 + d ≤ largest then gather (value * 10 + d) digits else (value, d :: digits)

/-- `x / 10 ^ places`, in steps that a power of ten of a float can take. -/
def scaleDown (x : Float) (places : Nat) : Float :=
  if places ≤ 308 then x / Float.ofScientific 1 false places
  else if x == 0 then x
  else scaleDown (x / Float.ofScientific 1 false 308) (places - 308)
termination_by places

/-- The float `significand · 10 ^ exponent`; nothing if it is too large. -/
def scaled? (significand : Nat) (exponent : Int) : Option Float :=
  let x := significand.toUInt64.toFloat
  if 0 ≤ exponent then
    if exponent ≤ 308 then
      let y := x * Float.ofScientific 1 false exponent.toNat
      if y.isInf then none else some y
    else if x == 0 then some x else none
  else some (scaleDown x (-exponent).toNat)

/-- The integer a numeral of digits alone means. A zero with a sign is not an
integer, and neither is a number below the signed range. -/
def integer? (negative : Bool) (magnitude : Nat) : Option Int :=
  if negative then
    let i : Int := -magnitude
    if i < 0 ∧ Int64.minValue.toInt ≤ i then some i else none
  else some magnitude

/-- The number a numeral means; `malformed` if it is too large for a float. -/
def Numeral.number (n : Numeral) : Except Cause Number :=
  let signed (x : Float) : Float := if n.negative then -x else x
  let (whole, left) := gather 0 n.whole
  if left = [] ∧ n.fraction = [] ∧ n.exponent = none then
    match integer? n.negative whole with
    | some i => .ok (.integer i)
    | none => .ok (.float (signed whole.toUInt64.toFloat))
  else
    let (significand, unread) := gather whole n.fraction
    let read : Int := n.fraction.length - unread.length
    match scaled? significand (n.exponent.getD 0 + left.length - read) with
    | some x => .ok (.float (signed x))
    | none => .error .malformed

end TicketPress.Json
