/-!
# Lines and offsets

A text is cut into lines in two ways. A script is cut at every line feed, so
that joining the pieces with line feeds gives the script back and every piece
has its offset. For reading a text as a person does, `lines` treats carriage
return and line feed as one line end and knows no empty last line.

Offsets count the bytes of the UTF-8 form.
-/

namespace TicketPress.Text

/-- The number of bytes of the UTF-8 form of the text. -/
def byteLength : List Char → Nat
  | [] => 0
  | c :: text => c.utf8Size + byteLength text

@[simp] theorem byteLength_nil : byteLength [] = 0 := rfl

@[simp] theorem byteLength_cons (c : Char) (text : List Char) :
    byteLength (c :: text) = c.utf8Size + byteLength text := rfl

@[simp] theorem byteLength_append (a b : List Char) :
    byteLength (a ++ b) = byteLength a + byteLength b := by
  induction a with
  | nil => simp
  | cons c a ih => simp [ih, Nat.add_assoc]

/-- The pieces of the text between its line feeds, the empty ones included. -/
def pieces (text : List Char) : List (List Char) := text.splitOn '\n'

/-- A line without the carriage return at its end. -/
def chomp (line : List Char) : List Char :=
  if line.getLast? = some '\r' then line.dropLast else line

/-- Pieces read as lines: each but the last was ended by a line feed and gives
up a carriage return before it; a last piece is a line if it is not empty. -/
def linesOfPieces : List (List Char) → List (List Char)
  | [] => []
  | [last] => if last = [] then [] else [last]
  | piece :: more => chomp piece :: linesOfPieces more

/-- The lines of a text, ended by a line feed or by carriage return and line
feed; the last line end is optional. -/
def lines (text : List Char) : List (List Char) := linesOfPieces (pieces text)

end TicketPress.Text
