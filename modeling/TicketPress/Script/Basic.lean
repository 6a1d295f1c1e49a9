import TicketPress.Instruction.Line
import TicketPress.Printer

/-!
# The script of a layout

A script is a list of lines. Between the lines that frame it stand the lines
of the elements, one block per element, and each of these lines knows its
element. A block holds the changes of state the element needs and the
instruction that prints it. An element that prints nothing, a spacing of no
height, may have an empty block.
-/

namespace TicketPress

/-! ## Blocks -/

/-- The changes of style a text needs. -/
def Item.styling (item : Item) (printer : Printer) : List Instruction :=
  (printer.resizing? item.size).toList ++ (printer.emboldening? item.bold).toList

/-- The size that is set together with a text. -/
def FontSize.withText : FontSize → Option FontSize
  | .normal => none
  | .large => some .large

/-- The instruction of a spacing. -/
def spacingInstruction? (height : Int32) : Option Instruction :=
  let dots := UInt32.ofNat height.toInt.natAbs
  if 0 < height then some (.feed dots)
  else if height < 0 then some (.retract dots)
  else none

/-- The instructions that print an item on the printer as it stands. An item
that moves the paper back sets its alignment in any case, so that what is
printed over starts from a known place. -/
def Item.instructions (item : Item) (printer : Printer) : List Instruction :=
  (printer.aligning? item.align item.content.isOverlay).toList ++
    match item.content with
    | .spacing height => (spacingInstruction? height).toList
    | .image _ fileName => [.loadImage (loadName fileName).toList]
    | .text content => item.styling printer ++ [.text (.ofContent content) item.size.withText]

/-- The blocks of a layout, one per item. -/
def blocks : Printer → List Item → List (List Instruction)
  | _, [] => []
  | printer, item :: rest =>
    let block := item.instructions printer
    block :: blocks (printer.afterAll block) rest

/-! ## Lines -/

/-- A line of a script. -/
structure ScriptLine where
  text : List Char
  /-- The identity of the element the line belongs to; nothing for a line of
  the frame. -/
  owner : Option String
  deriving Repr, DecidableEq

/-- A line of the frame of a script. -/
def frameLine (text : List Char) : ScriptLine := ⟨text, none⟩

/-- The lines before those of the elements. -/
def preamble : List ScriptLine :=
  [frameLine Instruction.selectCharset.line, frameLine [], frameLine Instruction.reset.line,
   frameLine Instruction.pageMode.line, frameLine []]

/-- The number of dots the paper moves before it is cut. -/
def trailerDots : UInt32 := 88

/-- The lines after those of the elements. -/
def trailer : List ScriptLine :=
  [frameLine [], frameLine (Instruction.feedAndCut trailerDots).line]

/-- The lines of an element's block. -/
def blockLines (id : String) (block : List Instruction) : List ScriptLine :=
  block.map fun instruction => ⟨instruction.line, some id⟩

/-- The lines of the elements of a layout. -/
def elementLines (printer : Printer) (layout : List Element) : List ScriptLine :=
  (layout.zipWith (fun element block => blockLines element.id block)
    (blocks printer (items layout))).flatten

/-- The script of a layout. The reset at its beginning is not taken into
account, so the first element sets its alignment whatever it is. -/
def script (layout : List Element) : List ScriptLine :=
  preamble ++ elementLines .unplaced layout ++ trailer

/-- The text of a script. -/
def scriptText (lines : List ScriptLine) : List Char :=
  ['\n'].intercalate (lines.map ScriptLine.text)

/-- The lines of a script that belong to an element. -/
def linesFor (id : String) (lines : List ScriptLine) : List ScriptLine :=
  lines.filter fun line => line.owner == some id

end TicketPress
