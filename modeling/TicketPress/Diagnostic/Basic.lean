import TicketPress.Bindings
import TicketPress.Decimal.Digits

/-!
# Diagnostics

A diagnostic says why a line of a script gave no element. It carries the code
of its kind, a severity, a message for people and, where there is one, the
place in the script and a context for tools. The codes the library gives have
explanations; a diagnostic that comes from elsewhere may carry any code.
-/

namespace TicketPress

/-! ## Codes -/

/-- The kinds of diagnostics the library gives. -/
inductive Code where
  /-- A line calls the printer with arguments that are no instruction. -/
  | unrecognizedInstruction
  /-- An argument among bytes is no number. -/
  | invalidNumber
  /-- The feed and cut at the end of a script is no element. -/
  | trailerSkipped
  /-- A script holds no element. -/
  | noElements
  /-- A command lacks its operand. -/
  | incompleteInstruction
  deriving Repr, DecidableEq

namespace Code

/-- All codes, in the order of their identifiers. -/
def all : List Code :=
  [.unrecognizedInstruction, .invalidNumber, .trailerSkipped, .noElements, .incompleteInstruction]

/-- The identifier of a code. -/
def id : Code → String
  | .unrecognizedInstruction => "TKS1001"
  | .invalidNumber => "TKS1002"
  | .trailerSkipped => "TKS1003"
  | .noElements => "TKS1004"
  | .incompleteInstruction => "TKS1005"

/-- The code of an identifier. -/
def ofId? (id : String) : Option Code := all.find? fun code => code.id == id

@[simp] theorem ofId?_id (code : Code) : ofId? code.id = some code := by cases code <;> rfl

/-- What a code means, at length. -/
def explanation : Code → String
  | .unrecognizedInstruction =>
    "The line calls BinaryOut but its arguments match none of the known " ++
      "instructions (alignment, bold, feed, overlay, reset, size, text, image). " ++
      "The line is ignored."
  | .invalidNumber =>
    "An argument is neither a decimal integer nor a 0x-prefixed hexadecimal " ++
      "integer, so the numeric instruction on this line is abandoned."
  | .trailerSkipped =>
    "The final feed-and-cut instruction is appended automatically when a " ++
      "script is generated, so it never becomes a layout element."
  | .noElements =>
    "Nothing in the input could be turned into a ticket element. Callers " ++
      "should treat this as a failed import and keep their current layout."
  | .incompleteInstruction =>
    "A recognised opcode (such as ESC a or ESC J) is missing the operand " ++
      "byte that follows it, so the instruction cannot be applied."

end Code

/-- What the code with an identifier means, if the library knows it. -/
def explain? (id : String) : Option String := (Code.ofId? id).map Code.explanation

/-! ## Severities -/

/-- How serious a diagnostic is. -/
inductive Severity where
  /-- The script is invalid. -/
  | error
  /-- The script may not mean what its author had in mind. -/
  | warning
  | note
  deriving Repr, DecidableEq

/-- The word for a severity. -/
def Severity.word : Severity → String
  | .error => "error"
  | .warning => "warn"
  | .note => "info"

/-! ## Spans -/

/-- A stretch of a script, from the offset of its first byte to the one after
its last. -/
structure Span where
  start : Nat
  stop : Nat
  deriving Repr, DecidableEq

/-- Two offsets that bound no stretch, because the second comes first. -/
structure ReversedSpan where
  start : Nat
  stop : Nat
  deriving Repr, DecidableEq

/-- The message about offsets in the wrong order. -/
def ReversedSpan.message (offsets : ReversedSpan) : String :=
  "Span end (" ++ String.ofList (Decimal.write offsets.stop) ++ ") < start (" ++
    String.ofList (Decimal.write offsets.start) ++ ")"

/-- The stretch between two offsets. -/
def Span.between (start stop : Nat) : Except ReversedSpan Span :=
  if stop < start then .error ⟨start, stop⟩ else .ok ⟨start, stop⟩

/-! ## Diagnostics -/

/-- A diagnostic. -/
structure Diagnostic where
  id : String
  severity : Severity
  message : String
  span : Option Span
  context : Option Bindings
  deriving DecidableEq

namespace Diagnostic

/-- What the code of a diagnostic means, if the library knows it. -/
def explanation? (diagnostic : Diagnostic) : Option String := explain? diagnostic.id

/-- A diagnostic on one line. -/
def text (diagnostic : Diagnostic) : String :=
  diagnostic.severity.word ++ "[" ++ diagnostic.id ++ "]: " ++ diagnostic.message

/-- Whether the diagnostic counts as a warning; anything else is a note. -/
def isWarning (diagnostic : Diagnostic) : Bool := diagnostic.severity == .warning

/-- What the context says under a name. -/
def contextOf? (diagnostic : Diagnostic) (name : String) : Option String :=
  diagnostic.context.bind fun context => context.find? name

end Diagnostic

end TicketPress
