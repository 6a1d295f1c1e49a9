import TicketPress.Element.Basic
import TicketPress.Placeholder

/-!
# Instructions of the printer

An instruction is what one line of a script asks of the printer. Texts of a
script are lists of characters; the content of an element is a string.

A text to print is given as a literal. In a literal a line feed is written as
the two characters backslash and `n`, and nothing else is escaped. So content
that holds these two characters already comes back with a line feed in their
place.
-/

namespace TicketPress

/-- A text between the quotes of a script. -/
structure Literal where
  /-- What stands between the quotes. -/
  body : List Char
  /-- Whether the host fills in placeholders when it runs the script. -/
  interpolated : Bool
  deriving Repr, DecidableEq

/-- A line feed as it is written in a literal. -/
def escapedLineFeed : List Char := ['\\', 'n']

/-- The literal of a content. -/
def Literal.ofContent (content : String) : Literal :=
  let body := Text.replaceAll ['\n'] escapedLineFeed content.toList
  ⟨body, Placeholder.marked body⟩

/-- The content a literal stands for. -/
def Literal.content (literal : Literal) : String :=
  String.ofList (Text.replaceAll escapedLineFeed ['\n'] literal.body)

/-- A text in quotes. -/
def inQuotes (body : List Char) : List Char := '"' :: (body ++ ['"'])

/-- The literal with its quotes. -/
def Literal.text (literal : Literal) : List Char :=
  if literal.interpolated then '$' :: inQuotes literal.body else inQuotes literal.body

/-- What one line of a script asks for. -/
inductive Instruction where
  /-- The host declares how it encodes text. -/
  | selectCharset
  /-- The printer goes back to its first state. -/
  | reset
  | pageMode
  | setAlignment (align : Alignment)
  | setBold (bold : Bool)
  /-- A size is set without a text. -/
  | setFontSize (size : FontSize)
  /-- The paper moves forward by a number of dots. -/
  | feed (dots : UInt32)
  /-- The paper moves back by a number of dots. -/
  | retract (dots : UInt32)
  /-- A text is printed, in a size that is set with it if one is given. -/
  | text (literal : Literal) (size : Option FontSize)
  /-- The image of a file is printed. -/
  | loadImage (file : List Char)
  /-- The paper moves forward and is cut. -/
  | feedAndCut (dots : UInt32)
  deriving Repr, DecidableEq

end TicketPress
