import TicketPress.Decimal.Notation
import TicketPress.Project.Basic

/-!
# Ranges of a project

An editor offers only part of the values a project may hold. A value outside
does not keep a project from being used; it is reported, and of several such
values the first one.
-/

namespace TicketPress

/-- A value of a project outside its range. -/
inductive Violation where
  | width (value : UInt32)
  | height (value : UInt32)
  | overlayScale (value : Float)
  /-- The height of the spacing at a place in the layout. -/
  | spacing (index : Nat) (height : Int32)

namespace Violation

/-- The field the value stands in. -/
def field : Violation → String
  | .width _ => "width"
  | .height _ => "height"
  | .overlayScale _ => "previewOverlayScale"
  | .spacing index _ =>
    "elements[" ++ String.ofList (Decimal.write index) ++ "].spacingHeight"

/-- What is wrong with the value. -/
def reason : Violation → String
  | .width value => String.ofList (Decimal.write value.toNat) ++ " is outside 100–400"
  | .height value => String.ofList (Decimal.write value.toNat) ++ " is outside 400–2000"
  | .overlayScale value =>
    String.ofList (Decimal.messageNotation.text value) ++ " is outside 0.1–5.0"
  | .spacing _ given => String.ofList (Decimal.writeInt given.toInt) ++ " exceeds ±1000"

/-- The message about the value. -/
def message (violation : Violation) : String :=
  "invalid " ++ violation.field ++ ": " ++ violation.reason

end Violation

/-- The first spacing of a layout that is out of range; the first element
stands at `index`. -/
def spacingViolation? (index : Nat) : List Element → Option Violation
  | [] => none
  | element :: rest =>
    match element.content.height? with
    | some height =>
      if 1000 < height.toInt.natAbs then some (.spacing index height)
      else spacingViolation? (index + 1) rest
    | none => spacingViolation? (index + 1) rest

/-- The first value of a project that is out of range. -/
def Project.violation? (project : Project) : Option Violation :=
  if project.width < 100 ∨ 400 < project.width then some (.width project.width)
  else if project.height < 400 ∨ 2000 < project.height then some (.height project.height)
  else if ¬(0.1 ≤ project.overlayScale ∧ project.overlayScale ≤ 5.0) then
    some (.overlayScale project.overlayScale)
  else spacingViolation? 0 project.layout

end TicketPress
