import TicketPress.Diagnostic.Document
import TicketPress.Element.Document
import TicketPress.Printer
import TicketPress.Script.Recognition

/-!
# Recovering a layout from a script

Every line of a script that calls the printer is accounted for once: it gives
an item, it gives a diagnostic, or it changes the state of the printer in
silence. Other lines are passed over. Recovery never fails; a script without
any item gets a note that says so, after all other diagnostics.

A remark starts at the first two slashes of a line, also inside a text.
-/

namespace TicketPress

/-! ## Lines in their places -/

/-- A line of a script in its place. -/
structure PlacedLine where
  /-- The number of the line, from one on. -/
  number : Nat
  /-- The offset of its first byte. -/
  start : Nat
  text : List Char
  deriving Repr, DecidableEq

/-- The stretch of the script that is the line, without the line feed. -/
def PlacedLine.span (line : PlacedLine) : Span :=
  ⟨line.start, line.start + Text.byteLength line.text⟩

/-- The lines after which a line with the number and the offset would follow. -/
def placeFrom (number start : Nat) : List (List Char) → List PlacedLine
  | [] => []
  | text :: rest =>
    ⟨number, start, text⟩ :: placeFrom (number + 1) (start + Text.byteLength text + 1) rest

/-- The lines of a script in their places. -/
def placedLines (script : List Char) : List PlacedLine := placeFrom 1 0 (Text.pieces script)

/-- What starts a remark. -/
def remarkMark : List Char := ['/', '/']

/-- The line without its remark and without the blanks around what is left;
nothing if nothing is left. -/
def codePart? (line : List Char) : Option (List Char) :=
  let line := Text.trim line
  let code :=
    match Text.breakOn remarkMark line with
    | some (before, _) => Text.trimEnd before
    | none => line
  if code = [] then none else some code

/-- The code of a line that calls the printer. The call has to be written with
its capitals to count as one here. -/
def liveCode? (line : List Char) : Option (List Char) :=
  (codePart? line).filter (Text.occurs outputCall ·)

/-! ## Diagnostics of lines -/

/-- The context of a diagnostic: the number of the line and what else there is
to say. -/
def PlacedLine.context (line : PlacedLine) (more : List (String × String)) : Bindings :=
  .ofList (("line", String.ofList (Decimal.write line.number)) :: more)

/-- A diagnostic about a line. -/
def PlacedLine.diagnostic (line : PlacedLine) (code : Code) (severity : Severity)
    (message : String) (more : List (String × String)) : Diagnostic where
  id := code.id
  severity
  message
  span := some line.span
  context := some (line.context more)

/-- Bytes in decimal, separated by commas. -/
def bytesText (bytes : List UInt32) : String :=
  ",".intercalate (bytes.map fun n => String.ofList (Decimal.write n.toNat))

/-- The diagnostic about a line that gave no instruction, or the one that ends
a script. -/
def Recognition.diagnostic? (line : PlacedLine) : Recognition → Option Diagnostic
  | .instruction (.feedAndCut _) =>
    some (line.diagnostic .trailerSkipped .note "feed-and-cut trailer skipped" [])
  | .instruction _ => none
  | .incomplete command =>
    some (line.diagnostic .incompleteInstruction .warning
      (command.name ++ " is missing its operand byte") [("opcode", command.name)])
  | .invalidNumber spelling =>
    let token := String.ofList spelling
    some (line.diagnostic .invalidNumber .warning
      ("'" ++ token ++ "' is not a decimal or 0x-hex integer") [("token", token)])
  | .unrecognized bytes =>
    some (line.diagnostic .unrecognizedInstruction .note "unrecognized instruction, line ignored"
      (bytes.toList.map fun bytes => ("bytes", bytesText bytes)))

/-- The note about a script that holds no element. -/
def noElementsNote : Diagnostic where
  id := Code.noElements.id
  severity := .note
  message := "no ticket elements recognised"
  span := none
  context := none

/-! ## Recovery -/

/-- The printer after a line. -/
def Recognition.printerAfter (printer : Printer) : Recognition → Printer
  | .instruction given => printer.after given
  | _ => printer

/-- The item of a line, in the style of the printer after it. -/
def Recognition.item? (printer : Printer) : Recognition → Option Item
  | .instruction given => printer.item? given
  | _ => none

/-- What is recovered from a script. -/
structure Recovery where
  /-- The items, in the order of their lines. -/
  items : List Item
  /-- The diagnostics, in the order of their lines. -/
  diagnostics : List Diagnostic
  deriving DecidableEq

/-- What is recovered from lines, read on from a state of the printer. -/
def recoverFrom (printer : Printer) : List PlacedLine → Recovery
  | [] => ⟨[], []⟩
  | line :: rest =>
    match (liveCode? line.text).map recognize with
    | none => recoverFrom printer rest
    | some recognition =>
      let printer := recognition.printerAfter printer
      let found := recoverFrom printer rest
      { items := (recognition.item? printer).toList ++ found.items
        diagnostics := (recognition.diagnostic? line).toList ++ found.diagnostics }

/-- What is recovered from a script. -/
def recover (script : List Char) : Recovery :=
  let found := recoverFrom .initial (placedLines script)
  if found.items = [] then { found with diagnostics := found.diagnostics ++ [noElementsNote] }
  else found

/-- The items recovered from a script. -/
def recoverItems (script : List Char) : List Item := (recover script).items

/-- The recovered items as elements with fresh identities. -/
def Recovery.layout (fresh : Nat → String) (found : Recovery) : List Element :=
  Item.nameAll fresh found.items

/-- What is recovered from a script as a document. -/
def Recovery.encode (fresh : Nat → String) (found : Recovery) : Json.Value :=
  .object [("elements", encodeLayout (found.layout fresh)),
    ("diagnostics", encodeDiagnostics found.diagnostics)]

end TicketPress
