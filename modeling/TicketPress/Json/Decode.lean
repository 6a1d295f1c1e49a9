import TicketPress.Json.Reader

/-!
# Asking a draft for a shape

Each function asks a draft for one shape and answers with the value or with
the first fault that a reader from front to back meets. A value of the wrong
kind is named at once, without a look inside it; a fault of the text itself
comes before the shape where the value cannot be told without it.
-/

namespace TicketPress.Json

/-- An answer of one who asks a draft for something. -/
abbrev Answer (α : Type) := Except Fault α

/-- A fault of the text as an answer. -/
def Answer.lift {α : Type} (read : Except Cause α) : Answer α := read.mapError .broken

/-- A wrong shape as an answer. -/
def Answer.refuse {α : Type} (error : ShapeError) : Answer α := .error (.shape error)

/-- What stands here, as far as one must read to name it. -/
def Draft.found : Draft → Except Cause Found
  | .absent => .error .endOfInput
  | .stray => .error .malformed
  | .broken stop => .error stop.asked
  | .null => .ok .null
  | .boolean value => .ok (.boolean value)
  | .number numeral => numeral.number.map Number.found
  | .text asked _ => asked.map .text
  | .array _ => .ok .sequence
  | .object _ => .ok .map

/-- The answer when something else than `expected` stands here. -/
def Draft.mismatch {α : Type} (draft : Draft) (expected : String) : Answer α := do
  Answer.refuse (.wrongType (← Answer.lift draft.found) expected)

/-! ## Single values -/

/-- A text. -/
def Draft.asText (draft : Draft) (expected : String) : Answer String :=
  match draft with
  | .text asked _ => Answer.lift asked
  | draft => draft.mismatch expected

/-- A truth value. -/
def Draft.asBoolean : Draft → Answer Bool
  | .boolean value => .ok value
  | draft => draft.mismatch "a boolean"

/-- A number as the integer of a bounded type. -/
def Number.asInteger (low high : Int) (expected : String) : Number → Except ShapeError Int
  | .integer i =>
    if low ≤ i ∧ i ≤ high then .ok i else .error (.wrongValue (.integer i) expected)
  | .float x => .error (.wrongType (.float x) expected)

/-- An integer of a bounded type. -/
def Draft.asInteger (low high : Int) (expected : String) : Draft → Answer Int
  | .number numeral => do
    match (← Answer.lift numeral.number).asInteger low high expected with
    | .ok i => return i
    | .error error => Answer.refuse error
  | draft => draft.mismatch expected

/-- An offset: a natural number of 64 bits. -/
def Draft.asOffset (draft : Draft) : Answer Nat :=
  (draft.asInteger 0 largest "usize").map Int.toNat

/-- A number as a float. -/
def Draft.asFloat : Draft → Answer Float
  | .number numeral => do
    match ← Answer.lift numeral.number with
    | .integer i =>
      let magnitude := i.natAbs.toUInt64.toFloat
      return if i < 0 then -magnitude else magnitude
    | .float x => return x
  | draft => draft.mismatch "f64"

/-- A value that may be left out by writing `null`. -/
def Draft.asOption {α : Type} (ask : Draft → Answer α) : Draft → Answer (Option α)
  | .null => .ok none
  | draft => (ask draft).map some

/-! ## Words from a known list -/

/-- The meaning of a word, if it is one of the known ones. -/
def variant {α : Type} (known : List (String × α)) (word : String) : Except ShapeError α :=
  match known.lookup word with
  | some meaning => .ok meaning
  | none => .error (.unknownVariant word (known.map (·.1)))

/-- A shape error as an answer, anything else as it is. -/
def Answer.ofShape {α : Type} : Except ShapeError α → Answer α
  | .ok value => .ok value
  | .error error => Answer.refuse error

/-- A word from a known list: written as a text, or as an object of one member
with the word as its key and `null` as its value. -/
def Draft.asVariant {α : Type} (known : List (String × α)) (depth : Nat) : Draft → Answer α
  | .text asked _ => do Answer.ofShape (variant known (← Answer.lift asked))
  | .object members => do
    let _ ← Answer.lift (enter depth)
    match members with
    | .closed => .error (.broken .malformed)
    | .stopped cause => .error (.broken cause)
    | .member key value rest =>
      let meaning ← Answer.ofShape (variant known (← Answer.lift key.keyName))
      match value with
      | .null => pure ()
      | value => value.mismatch "unit"
      match rest with
      | .closed => return meaning
      | .stopped cause => .error (.broken cause)
      | .member .. => .error (.broken .malformed)
  | .absent => .error (.broken .endOfInput)
  | _ => .error (.broken .malformed)

/-! ## Arrays and objects -/

/-- The rest of an array, item by item. -/
def Items.askEach {α : Type} (ask : Draft → Answer α) : Items → Answer (List α)
  | .closed => .ok []
  | .stopped cause => .error (.broken cause)
  | .item value rest => do
    let first ← ask value
    return first :: (← rest.askEach ask)

/-- An array of values of one shape; the items are asked at the depth inside
it. -/
def Draft.asList {α : Type} (depth : Nat) (ask : Nat → Draft → Answer α) :
    Draft → Answer (List α)
  | .array items => do
    let inner ← Answer.lift (enter depth)
    items.askEach (ask inner)
  | draft => draft.mismatch "a sequence"

/-- The rest of an object, member by member, collecting in `state`. -/
def Members.collect {σ : Type} (step : σ → String → Draft → Answer σ) :
    (state : σ) → Members → Answer σ
  | state, .closed => .ok state
  | _, .stopped cause => .error (.broken cause)
  | state, .member key value rest => do
    let name ← Answer.lift key.keyName
    let state ← step state name value
    rest.collect step state

/-- A field of a record that is met: refused if it was met before. -/
def fill {α : Type} (name : String) (before : Option α) (ask : Answer α) : Answer (Option α) :=
  match before with
  | some _ => Answer.refuse (.duplicateField name)
  | none => ask.map some

/-- A field that must have been met. -/
def require {α : Type} (name : String) : Option α → Answer α
  | some value => .ok value
  | none => Answer.refuse (.missingField name)

/-- Passes over a value that no field asks for. -/
def Draft.ignore (draft : Draft) : Answer Unit := Answer.lift draft.skip

/-- The next item of a record written as an array; `position` of them came
before, and `expected` names the record. -/
def Items.takeField {α : Type} (position : Nat) (expected : String) (ask : Draft → Answer α) :
    Items → Answer (α × Items)
  | .closed => Answer.refuse (.wrongLength position expected)
  | .stopped cause => .error (.broken cause)
  | .item value rest => do
    return (← ask value, rest)

/-- After the last field of a record written as an array. -/
def Items.finish : Items → Answer Unit
  | .closed => .ok ()
  | .stopped cause => .error (.broken cause)
  | .item .. => .error (.broken .malformed)

/-- Asks a text for a document of a shape: the whole text is one document and
blanks. -/
def decode {α : Type} (ask : Nat → Draft → Answer α) (text : String) : Answer α := do
  let document := Document.read text
  let value ← ask maxDepth document.root
  if document.finished then return value else .error (.broken .malformed)

end TicketPress.Json
