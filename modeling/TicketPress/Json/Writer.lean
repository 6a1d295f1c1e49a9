import TicketPress.Decimal.Notation
import TicketPress.Json.Value

/-!
# Writing JSON

A document is written either on one line without blanks or spread over lines
with two spaces of indentation per level; empty arrays and objects keep to
one line. Between quotes only the quote, the backslash and the control
characters below the space are escaped.
-/

namespace TicketPress.Json

/-- A character of a text between its quotes. -/
def escapedChar (c : Char) : List Char :=
  if c = '"' then ['\\', '"']
  else if c = '\\' then ['\\', '\\']
  else if c = '\x08' then ['\\', 'b']
  else if c = '\t' then ['\\', 't']
  else if c = '\n' then ['\\', 'n']
  else if c = '\x0c' then ['\\', 'f']
  else if c = '\r' then ['\\', 'r']
  else if c.toNat < 0x20 then
    '\\' :: 'u' :: '0' :: '0' :: [Nat.digitChar (c.toNat / 16), Nat.digitChar (c.toNat % 16)]
  else [c]

/-- A text in quotes. -/
def writeText (text : List Char) : List Char := '"' :: (text.flatMap escapedChar ++ ['"'])

/-- A number; a float that is not finite has no form and is written `null`. -/
def Number.write : Number → List Char
  | .integer i => Decimal.writeInt i
  | .float x => Decimal.jsonNotation.text x

/-! ## On one line -/

mutual

/-- The value on one line. -/
def Value.compact : Value → List Char
  | .null => "null".toList
  | .boolean value => (if value then "true" else "false").toList
  | .number value => value.write
  | .text value => writeText value.toList
  | .array items => '[' :: (compactItems items ++ [']'])
  | .object members => '\x7b' :: (compactMembers members ++ ['\x7d'])

/-- The items of an array, separated by commas. -/
def compactItems : List Value → List Char
  | [] => []
  | [item] => item.compact
  | item :: items => item.compact ++ ',' :: compactItems items

/-- The members of an object, separated by commas. -/
def compactMembers : List (String × Value) → List Char
  | [] => []
  | [(name, value)] => writeText name.toList ++ ':' :: value.compact
  | (name, value) :: members =>
    writeText name.toList ++ ':' :: (value.compact ++ ',' :: compactMembers members)

end

/-! ## Spread over lines -/

/-- A line break followed by the indentation of the level. -/
def newLine (level : Nat) : List Char := '\n' :: List.replicate (2 * level) ' '

mutual

/-- The value spread over lines, for a value that starts at the level. -/
def Value.prettyAt (level : Nat) : Value → List Char
  | .array [] => ['[', ']']
  | .array (item :: items) =>
    '[' :: (prettyItems (level + 1) (item :: items) ++ newLine level ++ [']'])
  | .object [] => ['\x7b', '\x7d']
  | .object (member :: members) =>
    '\x7b' :: (prettyMembers (level + 1) (member :: members) ++ newLine level ++ ['\x7d'])
  | .null => "null".toList
  | .boolean value => (if value then "true" else "false").toList
  | .number value => value.write
  | .text value => writeText value.toList

/-- The items of an array, each on a line of its own. -/
def prettyItems (level : Nat) : List Value → List Char
  | [] => []
  | [item] => newLine level ++ item.prettyAt level
  | item :: items => newLine level ++ item.prettyAt level ++ ',' :: prettyItems level items

/-- The members of an object, each on a line of its own. -/
def prettyMembers (level : Nat) : List (String × Value) → List Char
  | [] => []
  | [(name, value)] =>
    newLine level ++ writeText name.toList ++ ':' :: ' ' :: value.prettyAt level
  | (name, value) :: members =>
    newLine level ++ writeText name.toList ++ ':' :: ' ' :: value.prettyAt level
      ++ ',' :: prettyMembers level members

end

/-- The document on one line. -/
def Value.write (value : Value) : String := String.ofList value.compact

/-- The document spread over lines. -/
def Value.writePretty (value : Value) : String := String.ofList (value.prettyAt 0)

end TicketPress.Json
