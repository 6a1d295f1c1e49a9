import TicketPress.Instruction.Basic

/-!
# The state of the printer

What is printed looks as the instructions before it have left the printer. The
same transition serves both directions: a layout is written with the changes
of state its elements need, and a script is read with the state its lines
leave behind.
-/

namespace TicketPress

/-! ## What is printed -/

/-- The height of a feed; what is too far for an integer of 32 bits is cut to
the largest one. -/
def feedHeight (dots : UInt32) : Int32 :=
  Int32.ofInt (min dots.toNat Int32.maxValue.toInt)

/-- The height of a way back; what is too far for an integer of 32 bits is cut
to the smallest one. -/
def retractHeight (dots : UInt32) : Int32 :=
  Int32.ofInt (max (-dots.toNat) Int32.minValue.toInt)

/-- The content an instruction prints. -/
def Instruction.content? : Instruction → Option Content
  | .feed dots => some (.spacing (feedHeight dots))
  | .retract dots => some (.spacing (retractHeight dots))
  | .text literal _ => some (.text literal.content)
  | .loadImage file => some (.image "" (some (String.ofList file)))
  | _ => none

/-! ## The state -/

/-- How the next content is printed unless something changes. -/
structure Printer where
  /-- The alignment; nothing if it is not known. -/
  align : Option Alignment
  bold : Bool := false
  size : FontSize := .normal
  deriving Repr, DecidableEq

namespace Printer

/-- The printer after a reset, at which a reader of a script starts. -/
def initial : Printer := { align := some .left }

/-- The printer a writer of a script starts with: its alignment counts as not
known, so that the first element always sets its own. -/
def unplaced : Printer := { align := none }

/-- The alignment in force: left as long as none is known. -/
def alignment (printer : Printer) : Alignment := printer.align.getD .left

/-- The printer after an instruction. -/
def after (printer : Printer) : Instruction → Printer
  | .reset => initial
  | .setAlignment align => { printer with align := some align }
  | .setBold bold => { printer with bold }
  | .setFontSize size => { printer with size }
  | .text _ (some size) => { printer with size }
  | _ => printer

/-- The printer after instructions. -/
def afterAll (printer : Printer) (instructions : List Instruction) : Printer :=
  instructions.foldl after printer

@[simp] theorem afterAll_nil (printer : Printer) : printer.afterAll [] = printer := rfl

@[simp] theorem afterAll_cons (printer : Printer) (first : Instruction)
    (rest : List Instruction) :
    printer.afterAll (first :: rest) = (printer.after first).afterAll rest := rfl

@[simp] theorem afterAll_append (printer : Printer) (a b : List Instruction) :
    printer.afterAll (a ++ b) = (printer.afterAll a).afterAll b := by
  simp [afterAll]

/-! ## Changes that are needed -/

/-- The instruction that sets an alignment; nothing if it is in force, unless
it is to be set in any case. -/
def aligning? (printer : Printer) (align : Alignment) (always : Bool) : Option Instruction :=
  if always ∨ printer.align ≠ some align then some (.setAlignment align) else none

/-- The instruction that turns bold on or off, if it is not so already. -/
def emboldening? (printer : Printer) (bold : Bool) : Option Instruction :=
  if printer.bold ≠ bold then some (.setBold bold) else none

/-- The instruction that takes a large size back, if a normal one is wanted. A
large size comes with its text and needs none. -/
def resizing? (printer : Printer) (size : FontSize) : Option Instruction :=
  if size = .normal ∧ printer.size = .large then some (.setFontSize .normal) else none

/-! ## Items -/

/-- The item an instruction gives, in the style of the printer. The printer is
the one after the instruction, so a text that sets its size has it. -/
def item? (printer : Printer) (instruction : Instruction) : Option Item :=
  instruction.content?.map fun content =>
    { content, align := printer.alignment, bold := printer.bold, size := printer.size }

end Printer

end TicketPress
