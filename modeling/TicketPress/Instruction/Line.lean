import TicketPress.Decimal.Digits
import TicketPress.Instruction.Command

/-!
# Instructions as lines of a script

Every instruction is one call in the language of the host, followed by a
remark where one helps a reader. Command bytes are written in hexadecimal,
numbers of dots in decimal.
-/

namespace TicketPress

/-! ## Names the host knows -/

/-- The call that sends bytes to the printer. -/
def outputCall : List Char := "BinaryOut".toList

/-- The call that encodes a text. -/
def encoderCall : List Char := "BIG5.GetBytes".toList

/-- The call that reads the bytes of a file. -/
def readerCall : List Char := "File.ReadAllBytes".toList

/-- The call that joins a folder and a file name. -/
def joinCall : List Char := "Path.Combine".toList

/-- The folder of the images. -/
def imageFolder : List Char := "GlobalVariable.TicketLogoFolder".toList

/-! ## Writing -/

/-- A command byte. -/
def hexText (n : UInt32) : List Char := '0' :: 'x' :: Decimal.writeHex n.toNat

/-- A number of dots. -/
def dotsText (n : UInt32) : List Char := Decimal.write n.toNat

/-- Arguments, separated by commas. -/
def argumentsText (arguments : List (List Char)) : List Char := [',', ' '].intercalate arguments

/-- A call with its arguments. -/
def callText (callee : List Char) (arguments : List (List Char)) : List Char :=
  callee ++ '(' :: (argumentsText arguments ++ [')'])

/-- The statement that sends its arguments to the printer. -/
def outputText (arguments : List (List Char)) : List Char :=
  callText outputCall arguments ++ [';']

/-- The two bytes of a command as arguments. -/
def Command.arguments (command : Command) : List (List Char) :=
  [hexText command.lead, hexText command.code]

/-- The call that encodes a literal. -/
def Literal.encoded (literal : Literal) : List Char := callText encoderCall [literal.text]

/-- What a remark says about an alignment. -/
def Alignment.remark : Alignment → String
  | .left => "文字置左"
  | .center => "文字置中"
  | .right => "文字置右"

/-- The byte after a cut that asks for a full one. -/
def cutMode : List Char := ['0']

/-- The statement of an instruction, without a remark. -/
def Instruction.statement : Instruction → List Char
  | .selectCharset => "Encoding BIG5 = Encoding.GetEncoding(\"big5\");".toList
  | .reset => outputText Command.reset.arguments
  | .pageMode => outputText Command.pageMode.arguments
  | .setAlignment align => outputText (Command.align.arguments ++ [hexText align.operand])
  | .setBold bold => outputText (Command.bold.arguments ++ [hexText (boldOperand bold)])
  | .setFontSize size => outputText (Command.size.arguments ++ [hexText size.operand])
  | .feed dots => outputText (Command.feed.arguments ++ [dotsText dots])
  | .retract dots => outputText (Command.retract.arguments ++ [dotsText dots])
  | .text literal (some size) =>
    outputText (Command.size.arguments ++ [hexText size.operand, literal.encoded])
  | .text literal none => outputText [literal.encoded]
  | .loadImage file =>
    outputText [callText readerCall [callText joinCall [imageFolder, inQuotes file]]]
  | .feedAndCut dots =>
    outputText (Command.feed.arguments ++
      [dotsText dots, hexText Command.group, hexText Command.cut, cutMode])

/-- What follows the statement of an instruction on its line. -/
def Instruction.remark : Instruction → List Char
  | .reset => "  // 重置出票機".toList
  | .pageMode => "  // 整頁模式".toList
  | .setAlignment align => "  // ".toList ++ align.remark.toList
  | .setBold true => " //加粗".toList
  | .setBold false => " //取消加粗".toList
  | .setFontSize .normal => " //文字大小恢復".toList
  | .retract _ => "   // 重新對齊圖框起始位置 (Overlay)".toList
  | .loadImage _ => "  // 載入圖片".toList
  | .feedAndCut _ => " // 切紙".toList
  | _ => []

/-- The line of an instruction. -/
def Instruction.line (instruction : Instruction) : List Char :=
  instruction.statement ++ instruction.remark

end TicketPress
