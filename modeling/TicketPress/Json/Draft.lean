import TicketPress.Json.Numeral
import TicketPress.Json.Spelling

/-!
# Drafts: a document as far as it could be read

Reading a text as JSON never fails here. It gives a `Draft`, the tree of the
document up to the first place where the text is no JSON, and the fault stands
in the tree at that place. Whoever asks the draft for a value of some shape
walks it front to back and meets either a wrong shape or the fault, whichever
comes first. That order is the one in which a reader of the text meets them.

A value that is passed over is held to less than one that is asked for: its
numbers have no range and its texts may hold lone surrogates. Where the two
differ, the draft holds both answers.
-/

namespace TicketPress.Json

/-- Why a value could not be read: for one who asks for it, and for one who
passes over it. -/
structure Stop where
  asked : Cause
  skipped : Cause
  deriving Repr, DecidableEq

mutual

/-- A value of a document as far as it could be read. -/
inductive Draft where
  /-- The text ended where the value was due. -/
  | absent
  /-- Something that begins no value stands in its place. -/
  | stray
  /-- A word or a numeral that breaks off. -/
  | broken (stop : Stop)
  | null
  | boolean (value : Bool)
  | number (numeral : Numeral)
  /-- A text, or why it is none; `skipped` is what one meets who passes over
  it. -/
  | text (asked : Except Cause String) (skipped : Except Cause Unit)
  | array (items : Items)
  | object (members : Members)

/-- What follows inside an array. -/
inductive Items where
  | closed
  /-- After an item neither a comma nor the closing bracket. -/
  | stopped (cause : Cause)
  | item (value : Draft) (rest : Items)

/-- What follows inside an object. A key that is no text ends the object. -/
inductive Members where
  | closed
  /-- After a member neither a comma nor the closing brace. -/
  | stopped (cause : Cause)
  | member (key value : Draft) (rest : Members)

end

/-! ## Passing over -/

/-- What one meets who wants a key here. -/
def Draft.skipKey : Draft → Except Cause Unit
  | .text _ skipped => skipped
  | .absent => .error .endOfInput
  | _ => .error .malformed

mutual

/-- What one meets who passes over the value. -/
def Draft.skip : Draft → Except Cause Unit
  | .absent => .error .endOfInput
  | .stray => .error .malformed
  | .broken stop => .error stop.skipped
  | .null => .ok ()
  | .boolean _ => .ok ()
  | .number _ => .ok ()
  | .text _ skipped => skipped
  | .array items => items.skip
  | .object members => members.skip

/-- What one meets who passes over the rest of an array. -/
def Items.skip : Items → Except Cause Unit
  | .closed => .ok ()
  | .stopped cause => .error cause
  | .item value rest => do
    value.skip
    rest.skip

/-- What one meets who passes over the rest of an object. -/
def Members.skip : Members → Except Cause Unit
  | .closed => .ok ()
  | .stopped cause => .error cause
  | .member key value rest => do
    key.skipKey
    value.skip
    rest.skip

end

/-! ## Asking for the whole value -/

/-- How many containers may stand inside one another, and one more. -/
def maxDepth : Nat := 128

/-- The depth left inside one more container. -/
def enter (depth : Nat) : Except Cause Nat :=
  if depth ≤ 1 then .error .malformed else .ok (depth - 1)

/-- The name a key stands for. -/
def Draft.keyName : Draft → Except Cause String
  | .text asked _ => asked
  | .absent => .error .endOfInput
  | _ => .error .malformed

mutual

/-- The value, if all of it can be read. -/
def Draft.value (depth : Nat) : Draft → Except Cause Value
  | .absent => .error .endOfInput
  | .stray => .error .malformed
  | .broken stop => .error stop.asked
  | .null => .ok .null
  | .boolean value => .ok (.boolean value)
  | .number numeral => numeral.number.map .number
  | .text asked _ => asked.map .text
  | .array items => do
    let inner ← enter depth
    return .array (← items.values inner)
  | .object members => do
    let inner ← enter depth
    return .object (← members.values inner)

/-- The values of the rest of an array. -/
def Items.values (depth : Nat) : Items → Except Cause (List Value)
  | .closed => .ok []
  | .stopped cause => .error cause
  | .item value rest => do
    let first ← value.value depth
    return first :: (← rest.values depth)

/-- The members of the rest of an object. -/
def Members.values (depth : Nat) : Members → Except Cause (List (String × Value))
  | .closed => .ok []
  | .stopped cause => .error cause
  | .member key value rest => do
    let name ← key.keyName
    let first ← value.value depth
    return (name, first) :: (← rest.values depth)

end

end TicketPress.Json
