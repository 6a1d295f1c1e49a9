import TicketPress.Bindings
import TicketPress.Text.Blank
import TicketPress.Text.Lines
import TicketPress.Text.Search

/-!
# Placeholders

A text may hold placeholders `{name}`, which are filled in when the ticket is
printed. Three questions are asked about them, each with its own idea of what
counts. A text is *marked* if braces stand in order on one of its lines, with
anything between them. Its *names* are those of the well-formed placeholders.
Filling in goes by the names that have a value, whatever they look like.
-/

namespace TicketPress.Placeholder

open Text

/-- Whether an opening brace stands on the line and a closing one after it. -/
def markedLine (line : List Char) : Bool :=
  ((line.dropWhile (· ≠ '\x7b')).drop 1).contains '\x7d'

/-- Whether braces stand in order on a line of the text. -/
def marked (text : List Char) : Bool := (lines text).any markedLine

/-- Whether what stands between two braces is a name: it is not empty and holds
no blank and no opening brace. -/
def isName (between : List Char) : Bool :=
  between ≠ [] && between.all fun c => !isBlank c && c ≠ '\x7b'

/-- The names of the placeholders of a text, in their order. The search goes
from an opening brace to the closing brace after it. If a name stands between
them it goes on behind the closing brace, otherwise right behind the opening
one; where no closing brace follows it is over. -/
def names (text : List Char) : List (List Char) :=
  match hopen : breakOn ['\x7b'] text with
  | none => []
  | some (_, after) =>
    have : after.length < text.length := length_lt_of_breakOn hopen
    match hclose : breakOn ['\x7d'] after with
    | none => []
    | some (between, rest) =>
      have : rest.length < after.length := length_lt_of_breakOn hclose
      if isName between then between :: names rest else names after
termination_by text.length

/-- The placeholder of a name. -/
def written (name : List Char) : List Char := '\x7b' :: (name ++ ['\x7d'])

/-- The text with the placeholders of one name replaced by a value. -/
def fillOne (name value text : List Char) : List Char := replaceAll (written name) value text

/-- The text with the placeholders of all bound names replaced by their
values, name after name in the order of the bindings; a placeholder without a
value stays as it is. -/
def fill (values : Bindings) (text : List Char) : List Char :=
  values.entries.foldl (fun text entry => fillOne entry.1.toList entry.2.toList text) text

end TicketPress.Placeholder
