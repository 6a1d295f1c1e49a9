import TicketPress.Instruction.Basic

/-!
# Printer commands

The commands of the printer, as bytes: two that name the command and, for most
of them, one operand. A reader of operands knows a digit as its number and as
its character, and takes anything else for the first choice.

`Command.find?_lead_code` says that the two bytes settle the command, and the
lemmas on operands that each setting is read back from its byte.
-/

namespace TicketPress

/-! ## Operands -/

/-- The operand of an alignment. -/
def Alignment.operand : Alignment → UInt32
  | .left => 0
  | .center => 1
  | .right => 2

/-- The alignment an operand stands for. -/
def Alignment.ofOperand (n : UInt32) : Alignment :=
  if n = 1 ∨ n = 49 then .center
  else if n = 2 ∨ n = 50 then .right
  else .left

@[simp] theorem Alignment.ofOperand_operand (a : Alignment) :
    Alignment.ofOperand a.operand = a := by cases a <;> rfl

/-- The operand that turns bold on or off. -/
def boldOperand (bold : Bool) : UInt32 := if bold then 1 else 0

/-- Whether an operand turns bold on. -/
def boldOfOperand (n : UInt32) : Bool := n = 1 || n = 49

@[simp] theorem boldOfOperand_boldOperand (bold : Bool) :
    boldOfOperand (boldOperand bold) = bold := by cases bold <;> rfl

/-- The operand of a size. -/
def FontSize.operand : FontSize → UInt32
  | .normal => 0
  | .large => 1

/-- The size an operand stands for: double height is large, and so is double
width and height. -/
def FontSize.ofOperand (n : UInt32) : FontSize := if n = 0x01 ∨ n = 0x11 then .large else .normal

@[simp] theorem FontSize.ofOperand_operand (s : FontSize) :
    FontSize.ofOperand s.operand = s := by cases s <;> rfl

/-! ## Commands -/

/-- The commands of the printer that give an instruction. -/
inductive Command where
  | align
  | bold
  | feed
  | retract
  | reset
  | pageMode
  | size
  deriving Repr, DecidableEq

namespace Command

/-- The byte that begins most commands. -/
def escape : UInt32 := 0x1B

/-- The byte that begins the commands for sizes and cuts. -/
def group : UInt32 := 0x1D

/-- The byte after `group` that cuts the paper. -/
def cut : UInt32 := 0x56

/-- The first byte of a command. -/
def lead : Command → UInt32
  | .size => group
  | _ => escape

/-- The second byte of a command. -/
def code : Command → UInt32
  | .align => 0x61
  | .bold => 0x45
  | .feed => 0x4A
  | .retract => 0x4B
  | .reset => 0x40
  | .pageMode => 0x02
  | .size => 0x21

/-- The name of a command: its bytes as a manual writes them. -/
def name : Command → String
  | .align => "ESC a"
  | .bold => "ESC E"
  | .feed => "ESC J"
  | .retract => "ESC K"
  | .reset => "ESC @"
  | .pageMode => "ESC STX"
  | .size => "GS !"

/-- All commands. -/
def all : List Command := [.align, .bold, .feed, .retract, .reset, .pageMode, .size]

/-- The command that begins with two bytes. -/
def find? (lead code : UInt32) : Option Command :=
  all.find? fun command => command.lead == lead && command.code == code

@[simp] theorem find?_lead_code (command : Command) :
    find? command.lead command.code = some command := by cases command <;> rfl

end Command

/-! ## Decoding -/

/-- Why bytes give no instruction. -/
inductive DecodeError where
  /-- The operand of the command is missing. -/
  | incomplete (command : Command)
  /-- The bytes begin no command. -/
  | unknown
  deriving Repr, DecidableEq

/-- Whether bytes begin with a cut. -/
def beginsWithCut : List UInt32 → Bool
  | lead :: code :: _ => lead == Command.group && code == Command.cut
  | _ => false

/-- The instruction of a command and the bytes after it. A feed that a cut
follows is one instruction with it; other bytes after the operand are passed
over. -/
def Command.instruction : Command → List UInt32 → Except DecodeError Instruction
  | .reset, _ => .ok .reset
  | .pageMode, _ => .ok .pageMode
  | command, [] => .error (.incomplete command)
  | .align, n :: _ => .ok (.setAlignment (.ofOperand n))
  | .bold, n :: _ => .ok (.setBold (boldOfOperand n))
  | .feed, n :: rest => .ok (if beginsWithCut rest then .feedAndCut n else .feed n)
  | .retract, n :: _ => .ok (.retract n)
  | .size, n :: _ => .ok (.setFontSize (.ofOperand n))

/-- The instruction that bytes stand for. -/
def Instruction.ofBytes : List UInt32 → Except DecodeError Instruction
  | lead :: code :: operands =>
    match Command.find? lead code with
    | some command => command.instruction operands
    | none => .error .unknown
  | _ => .error .unknown

end TicketPress
