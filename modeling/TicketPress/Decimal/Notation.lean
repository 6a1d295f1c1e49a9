import TicketPress.Decimal.Digits
import TicketPress.Decimal.Shortest

/-!
# Notations for floats

The digits of a float are settled by `Binary.shortest` up to a tie; what is
left to decide is how the tie goes and how the digits are laid out. `Notation`
collects those decisions, and the library has two of them: `jsonNotation` for
documents and `messageNotation` for sentences.
-/

namespace TicketPress.Decimal

/-- How the digits of a float are written down. -/
structure Notation where
  /-- Which digits are taken if two are equally near. -/
  tie : Tie
  /-- Whether a number whose first digit stands for `10 ^ e` is written
  without an exponent. -/
  positional : (e : Int) → Bool
  /-- Whether a whole number written without an exponent ends in `.0`. -/
  markWhole : Bool
  /-- The text for no number. -/
  notANumber : String
  /-- The text for the two infinities, by sign. -/
  infinite : (negative : Bool) → String

/-- In a document: positional from `0.00001` up to sixteen digits, with `.0`
on whole numbers, and even digits in a tie. What is not finite has no form
there and is `null`. -/
def jsonNotation : Notation where
  tie := .toEven
  positional e := -5 ≤ e && e < 16
  markWhole := true
  notANumber := "null"
  infinite _ := "null"

/-- In a sentence: always positional, whole numbers plain, and the larger digits
in a tie. -/
def messageNotation : Notation where
  tie := .outward
  positional _ := true
  markWhole := false
  notANumber := "NaN"
  infinite negative := if negative then "-inf" else "inf"

/-- Digits without an exponent: their last one stands for `10 ^ exponent`. -/
def positionalText (markWhole : Bool) (digits : List Char) (exponent : Int) : List Char :=
  if 0 ≤ exponent then
    digits ++ List.replicate exponent.toNat '0' ++ if markWhole then ['.', '0'] else []
  else
    let places := (-exponent).toNat
    if places < digits.length then
      digits.take (digits.length - places) ++ '.' :: digits.drop (digits.length - places)
    else
      '0' :: '.' :: (List.replicate (places - digits.length) '0' ++ digits)

/-- Digits with an exponent: a point after the first one, if there are more,
and the exponent of the first one with its sign. -/
def exponentText (digits : List Char) (first : Int) : List Char :=
  digits.take 1
    ++ (if digits.length ≤ 1 then [] else '.' :: digits.drop 1)
    ++ 'e' :: (if first < 0 then '-' else '+') :: write first.natAbs

/-- The digits of a positive decimal in a notation. -/
def Figures.layOut (form : Notation) (d : Figures) : List Char :=
  let digits := write d.digits
  let first := d.exponent + digits.length - 1
  if form.positional first then positionalText form.markWhole digits d.exponent
  else exponentText digits first

/-- A float in a notation. -/
def Notation.text (form : Notation) (x : Float) : List Char :=
  match Binary.of? x with
  | none => if x.isNaN then form.notANumber.toList else (form.infinite (x < 0)).toList
  | some parts =>
    let sign := if parts.negative then ['-'] else []
    if parts.mantissa = 0 then sign ++ positionalText form.markWhole ['0'] 0
    else sign ++ (parts.shortest form.tie).layOut form

end TicketPress.Decimal
