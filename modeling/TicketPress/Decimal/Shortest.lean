/-!
# The shortest decimal of a binary number

A `Float` is written with the fewest digits that still read back as the same
number, and among those with the digits nearest to it. All of the search is
exact arithmetic on natural numbers: the float is `mantissa · 2 ^ exponent`,
the reals that round to it form an interval around it, and for 1, 2, … 17
digits the two neighbours of the value on that decimal grid are tested. If a
grid has a point in the interval at all, one of the two neighbours is in it,
so the first grid that answers is the shortest. Two neighbours may be equally
near, as `0.2` and `0.3` are to a quarter; then a `Tie` decides.
-/

namespace TicketPress.Decimal

/-- A finite float taken apart: its value is `mantissa · 2 ^ exponent`, with
the sign apart. -/
structure Binary where
  /-- Whether the sign is set; a zero may have it too. -/
  negative : Bool
  mantissa : Nat
  exponent : Int
  /-- Whether the next smaller float is only half as far away as the next
  larger one. -/
  tightBelow : Bool
  deriving Repr, DecidableEq

/-- The parts of a finite float; nothing for an infinity and for no number.
The bits are a sign, eleven bits of a biased exponent and 52 bits of a
fraction. -/
def Binary.of? (x : Float) : Option Binary :=
  let bits := x.toBits.toNat
  let negative := bits >>> 63 == 1
  let biased := bits >>> 52 &&& 0x7FF
  let fraction := bits &&& 0xFFFFFFFFFFFFF
  if biased = 0x7FF then none
  else if biased = 0 then some ⟨negative, fraction, -1074, false⟩
  else
    some ⟨negative, 0x10000000000000 + fraction, (biased : Int) - 1075,
      fraction == 0 && 1 < biased⟩

/-- The figures of a positive decimal: its value is `digits · 10 ^ exponent`. -/
structure Figures where
  digits : Nat
  exponent : Int
  deriving Repr, DecidableEq

/-- Which of two neighbours a value goes to that is just halfway between
them. -/
inductive Tie where
  | toEven
  /-- To the larger magnitude. -/
  | outward
  deriving Repr, DecidableEq

/-- Whether a value halfway above `floor` goes down to it. -/
def Tie.goesDown : Tie → (floor : Nat) → Bool
  | .toEven, floor => floor % 2 == 0
  | .outward, _ => false

/-- A positive fraction in natural numbers. -/
structure Ratio where
  numerator : Nat
  denominator : Nat

/-- The power `b ^ e` for an exponent that is not negative. -/
def power (b : Nat) (e : Int) : Nat := Nat.pow b e.toNat

/-- The fraction `n · 2 ^ e`. -/
def Ratio.ofBinary (n : Nat) (e : Int) : Ratio :=
  if 0 ≤ e then ⟨n * power 2 e, 1⟩ else ⟨n, power 2 (-e)⟩

/-- The fraction `r / 10 ^ e`. -/
def Ratio.shiftDecimal (r : Ratio) (e : Int) : Ratio :=
  if 0 ≤ e then ⟨r.numerator, r.denominator * power 10 e⟩
  else ⟨r.numerator * power 10 (-e), r.denominator⟩

/-- The power of ten of the first digit of a positive fraction: the `e` with
`10 ^ e ≤ r < 10 ^ (e + 1)`. -/
def Ratio.magnitude (r : Ratio) : Int :=
  let whole := r.numerator / r.denominator
  if 0 < whole then ((Nat.toDigits 10 whole).length : Int) - 1
  else
    -- Below one: the least `j` with `10 ^ j ≥ 1 / r`.
    let inverse := (r.denominator + r.numerator - 1) / r.numerator
    Int.negOfNat (Nat.toDigits 10 (inverse - 1)).length

/-- Whether the point `d` of the grid of whole numbers, on which the bounds
are given, lies between them; the bounds count only if `closed`. -/
def Ratio.between (low high : Ratio) (closed : Bool) (d : Nat) : Bool :=
  if closed then
    low.numerator ≤ d * low.denominator && d * high.denominator ≤ high.numerator
  else
    low.numerator < d * low.denominator && d * high.denominator < high.numerator

/-- The point of the grid of `count` digits that reads back, if there is one:
of two such points the nearer, and of two equally near ones the one that `tie`
picks. -/
def gridPoint? (tie : Tie) (value low high : Ratio) (closed : Bool) (exponent : Int) :
    Option Figures :=
  let v := value.shiftDecimal exponent
  let floor := v.numerator / v.denominator
  let fits := Ratio.between (low.shiftDecimal exponent) (high.shiftDecimal exponent) closed
  let twice := 2 * v.numerator
  let middle := (2 * floor + 1) * v.denominator
  match fits floor, fits (floor + 1) with
  | false, false => none
  | true, false => some ⟨floor, exponent⟩
  | false, true => some ⟨floor + 1, exponent⟩
  | true, true =>
    if twice < middle || (twice == middle && tie.goesDown floor) then some ⟨floor, exponent⟩
    else some ⟨floor + 1, exponent⟩

/-- The first grid that answers, from `count` digits up. -/
def firstGrid (tie : Tie) (value low high : Ratio) (closed : Bool) (magnitude : Int) :
    (grids count : Nat) → Figures
  | 0, count => ⟨(value.shiftDecimal (magnitude - count)).numerator, magnitude - count⟩
  | grids + 1, count =>
    match gridPoint? tie value low high closed (magnitude - count) with
    | some d => d
    | none => firstGrid tie value low high closed magnitude grids (count + 1)

/-- A decimal whose digits do not end in zero; `fuel` bounds the zeros cut. -/
def Figures.withoutTrailingZeros : (fuel : Nat) → Figures → Figures
  | 0, d => d
  | fuel + 1, d =>
    if d.digits % 10 = 0 ∧ d.digits ≠ 0 then
      withoutTrailingZeros fuel ⟨d.digits / 10, d.exponent + 1⟩
    else d

/-- The shortest decimal that reads back as the positive number
`mantissa · 2 ^ exponent`. The bounds of the interval are quarter units away
so that a half gap is a whole number of them; they belong to it iff the
mantissa is even. -/
def Binary.shortest (tie : Tie) (x : Binary) : Figures :=
  let scale := x.exponent - 2
  let value := Ratio.ofBinary (4 * x.mantissa) scale
  let low := Ratio.ofBinary (4 * x.mantissa - if x.tightBelow then 1 else 2) scale
  let high := Ratio.ofBinary (4 * x.mantissa + 2) scale
  (firstGrid tie value low high (x.mantissa % 2 == 0) value.magnitude 17 0).withoutTrailingZeros 20

/-- The whole number nearest to the magnitude of the float; a half goes to the
even neighbour. -/
def Binary.nearestWhole (x : Binary) : Nat :=
  let value := Ratio.ofBinary x.mantissa x.exponent
  let floor := value.numerator / value.denominator
  let twice := 2 * (value.numerator % value.denominator)
  if twice < value.denominator || (twice == value.denominator && Tie.toEven.goesDown floor) then floor
  else floor + 1

end TicketPress.Decimal
