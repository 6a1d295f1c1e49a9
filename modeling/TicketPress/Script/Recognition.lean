import TicketPress.Instruction.Line
import TicketPress.Script.Call
import TicketPress.Script.Number

/-!
# Recognising the instruction of a line

A line is recognised by the shape of its call. A call whose arguments are all
words is bytes and is decoded as such. Otherwise it is a text with its size, a
text alone, or an image, tried in this order.

Images are recognised generously: any call that reads a file will do, and a
line on which no call can be read still counts as an image if it mentions the
reading of a file.
-/

namespace TicketPress

/-- What a line turned out to be. -/
inductive Recognition where
  | instruction (instruction : Instruction)
  /-- A command without its operand. -/
  | incomplete (command : Command)
  /-- An argument among bytes that is no number. -/
  | invalidNumber (spelling : List Char)
  /-- Nothing that is known; the bytes are given if there are some. -/
  | unrecognized (bytes : Option (List UInt32))
  deriving Repr, DecidableEq

/-- The numbers of words, or the first word that is none. -/
def numbers : List (List Char) → Except (List Char) (List UInt32)
  | [] => .ok []
  | spelling :: rest =>
    match number? spelling with
    | none => .error spelling
    | some n => (numbers rest).map (n :: ·)

/-- What bytes are recognised as. -/
def Recognition.ofBytes (bytes : List UInt32) : Recognition :=
  match Instruction.ofBytes bytes with
  | .ok decoded => .instruction decoded
  | .error (.incomplete command) => .incomplete command
  | .error .unknown => .unrecognized (some bytes)

/-- The words that all arguments are; nothing if there is no argument. -/
def Call.words? (call : Call) : Option (List (List Char)) :=
  if call.arguments.isEmpty then none else call.arguments.mapM Expr.word?

/-- A call of bytes. -/
def Call.bytes? (call : Call) : Option Recognition :=
  call.words?.map fun words =>
    match numbers words with
    | .ok bytes => .ofBytes bytes
    | .error spelling => .invalidNumber spelling

/-- The number a word argument stands for. -/
def Expr.number? (expr : Expr) : Option UInt32 := expr.word?.bind TicketPress.number?

/-- The literal of a call that encodes one text. -/
def Expr.literal? : Expr → Option Literal
  | .call callee [.text body interpolated] =>
    if isNamed encoderCall callee then some ⟨body, interpolated⟩ else none
  | _ => none

/-- A call of a size and a text. -/
def Call.sizedText? (call : Call) : Option Instruction :=
  match call.arguments with
  | [lead, code, size, text] => do
    guard (lead.number? = some Command.size.lead)
    guard (code.number? = some Command.size.code)
    let size ← size.number?
    let literal ← text.literal?
    return .text literal (some (.ofOperand size))
  | _ => none

/-- A call of a text. -/
def Call.plainText? (call : Call) : Option Instruction :=
  match call.arguments with
  | [text] => text.literal?.map fun literal => .text literal none
  | _ => none

/-- The file name in a call that joins a folder and a name. -/
def Call.fileName? (call : Call) : Option (List Char) :=
  if call.arguments.length < 2 then none
  else
    match call.arguments.getLast? with
    | some (.text body _) => if body = [] then none else some body
    | _ => none

/-- A call of an image. -/
def Call.image? (call : Call) : Option Instruction :=
  (findAmong? readerCall call.arguments).map fun reader =>
    .loadImage (((reader.find? joinCall).bind Call.fileName?).getD fallbackFile.toList)

/-- What a call is recognised as. -/
def Call.recognize (call : Call) : Recognition :=
  match call.bytes? with
  | some recognition => recognition
  | none =>
    match (call.sizedText?.or call.plainText?).or call.image? with
    | some instruction => .instruction instruction
    | none => .unrecognized none

/-- What a line is recognised as; blanks around it and remarks are gone. -/
def recognize (line : List Char) : Recognition :=
  match findCall outputCall line with
  | some call => call.recognize
  | none =>
    if Text.occurs readerCall line then .instruction (.loadImage fallbackFile.toList)
    else .unrecognized none

end TicketPress
