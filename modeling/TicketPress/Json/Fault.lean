import TicketPress.Decimal.Notation
import TicketPress.Json.Value
import TicketPress.Text.Quoted

/-!
# What can be wrong with a document

A document fails either as JSON, because it ends too early or is malformed,
or as the document of something, because what stands at a place has the wrong
shape. Only the second kind has a message; a shape is named by what was found
and what was expected.
-/

namespace TicketPress.Json

/-- Why a text is no JSON. -/
inductive Cause where
  /-- The text ended where more of it was due. -/
  | endOfInput
  /-- Something else stands there than JSON allows, or a number is too large
  for a float, or containers are nested too deeply. -/
  | malformed
  deriving Repr, DecidableEq

/-- What stands at a place, as a message names it. -/
inductive Found where
  | null
  | boolean (value : Bool)
  | integer (value : Int)
  | float (value : Float)
  | text (value : String)
  | sequence
  | map

/-- The number as a message names it. -/
def Number.found : Number → Found
  | .integer i => .integer i
  | .float x => .float x

/-- The value as a message names it. -/
def Value.found : Value → Found
  | .null => .null
  | .boolean value => .boolean value
  | .number value => value.found
  | .text value => .text value
  | .array _ => .sequence
  | .object _ => .map

/-- The words for what was found. -/
def Found.words : Found → String
  | .null => "null"
  | .boolean value => "boolean `" ++ (if value then "true" else "false") ++ "`"
  | .integer i => "integer `" ++ String.ofList (Decimal.writeInt i) ++ "`"
  | .float x => "floating point `" ++ String.ofList (Decimal.jsonNotation.text x) ++ "`"
  | .text value => "string " ++ String.ofList (Text.quoted value.toList)
  | .sequence => "sequence"
  | .map => "map"

/-- A part of a document that has not the shape its place asks for. -/
inductive ShapeError where
  /-- A value of another kind than the place takes. -/
  | wrongType (found : Found) (expected : String)
  /-- A value of the right kind outside the range of the place. -/
  | wrongValue (found : Found) (expected : String)
  /-- An array with another number of items than the place takes. -/
  | wrongLength (length : Nat) (expected : String)
  | missingField (name : String)
  | duplicateField (name : String)
  /-- A word that is none of the words the place knows. -/
  | unknownVariant (name : String) (known : List String)

/-- The known words of a place, as a message lists them. -/
def alternatives : List String → String
  | [] => "nothing"
  | [a] => "`" ++ a ++ "`"
  | [a, b] => "`" ++ a ++ "` or `" ++ b ++ "`"
  | known => "one of " ++ ", ".intercalate (known.map fun a => "`" ++ a ++ "`")

/-- The message of a shape error. -/
def ShapeError.message : ShapeError → String
  | .wrongType found expected => "invalid type: " ++ found.words ++ ", expected " ++ expected
  | .wrongValue found expected => "invalid value: " ++ found.words ++ ", expected " ++ expected
  | .wrongLength length expected =>
    "invalid length " ++ String.ofList (Decimal.write length) ++ ", expected " ++ expected
  | .missingField name => "missing field `" ++ name ++ "`"
  | .duplicateField name => "duplicate field `" ++ name ++ "`"
  | .unknownVariant name known =>
    "unknown variant `" ++ name ++ "`, expected " ++ alternatives known

/-- Why a document was refused. -/
inductive Fault where
  | broken (cause : Cause)
  | shape (error : ShapeError)

end TicketPress.Json
