import TicketPress.Json.Draft

/-!
# Reading JSON

A text becomes a draft by recursive descent over its characters. Each reader
gives the draft of what it read and, if reading can go on, the rest of the
text. Every call takes at least a character or hands the same text to a reader
of a smaller part, so twice the length of the text bounds the depth of the
descent, and `Document.read` supplies that bound.
-/

namespace TicketPress.Json

/-- A blank between the parts of a document. -/
def isSpace (c : Char) : Bool := c == ' ' || c == '\t' || c == '\n' || c == '\r'

/-- The text without the blanks at its start. -/
def skipSpace (text : List Char) : List Char := text.dropWhile isSpace

/-- The rest of a text after a word, or why the word does not stand there. -/
def readWord : (word text : List Char) → Except Cause (List Char)
  | [], text => .ok text
  | _ :: _, [] => .error .endOfInput
  | w :: word, c :: text => if w = c then readWord word text else .error .malformed

/-- A fault that is the same for one who asks and one who passes over. -/
def Stop.both (cause : Cause) : Stop := ⟨cause, cause⟩

/-- A draft that ends reading. -/
def halted (stop : Stop) : Draft × Option (List Char) := (.broken stop, none)

/-- Reads one of the three words, without its first letter. -/
def readConstant (word : List Char) (value : Draft) (text : List Char) :
    Draft × Option (List Char) :=
  match readWord word text with
  | .ok rest => (value, some rest)
  | .error cause => halted (.both cause)

/-- Reads the text after an opening quote. -/
def readText (text : List Char) : Draft × Option (List Char) :=
  match scanText text with
  | (pieces, .ok rest) => (.text ((joinPieces none pieces).map String.ofList) (.ok ()), some rest)
  | (pieces, .error cause) =>
    (.text ((joinPieces (some cause) pieces).map String.ofList) (.error cause), none)

/-! ## Numerals -/

/-- The digits at the start of a text and the rest. -/
def takeDigits : List Char → List Nat × List Char
  | [] => ([], [])
  | c :: text =>
    match Decimal.digit? 10 c with
    | some d =>
      let (digits, rest) := takeDigits text
      (d :: digits, rest)
    | none => ([], c :: text)

/-- The value of a run of decimal digits. -/
def digitsValue (digits : List Nat) : Nat := digits.foldl (fun value d => value * 10 + d) 0

/-- Where a digit is due: at the end of the text one who asks meets the end,
and one who passes over meets a malformed number. -/
def digitDue (text : List Char) : Stop :=
  if text = [] then ⟨.endOfInput, .malformed⟩ else .both .malformed

/-- The digits before the point. A zero stands alone. -/
def readWhole (text : List Char) : Except Stop (List Nat × List Char) :=
  match takeDigits text with
  | ([], rest) => .error (digitDue rest)
  | ([0], rest) => .ok ([0], rest)
  | (0 :: _, _) => .error (.both .malformed)
  | (digits, rest) => .ok (digits, rest)

/-- The digits after the point, if there is one. -/
def readFraction : List Char → Except Stop (List Nat × List Char)
  | '.' :: text =>
    match takeDigits text with
    | ([], rest) => .error (digitDue rest)
    | (digits, rest) => .ok (digits, rest)
  | text => .ok ([], text)

/-- The digits of an exponent after its sign. -/
def readExponentDigits (negative : Bool) (text : List Char) :
    Except Stop (Option Int × List Char) :=
  match takeDigits text with
  | ([], rest) => .error (digitDue rest)
  | (digits, rest) =>
    let value : Int := digitsValue digits
    .ok (some (if negative then -value else value), rest)

/-- The exponent, if there is one. -/
def readExponent : List Char → Except Stop (Option Int × List Char)
  | [] => .ok (none, [])
  | c :: text =>
    if c = 'e' ∨ c = 'E' then
      match text with
      | '+' :: text => readExponentDigits false text
      | '-' :: text => readExponentDigits true text
      | text => readExponentDigits false text
    else .ok (none, c :: text)

/-- A numeral after its sign. -/
def readMagnitude (negative : Bool) (text : List Char) : Except Stop (Numeral × List Char) := do
  let (whole, text) ← readWhole text
  let (fraction, text) ← readFraction text
  let (exponent, text) ← readExponent text
  return (⟨negative, whole, fraction, exponent⟩, text)

/-- Reads a numeral. -/
def readNumeral (text : List Char) : Draft × Option (List Char) :=
  let magnitude :=
    match text with
    | '-' :: rest => readMagnitude true rest
    | text => readMagnitude false text
  match magnitude with
  | .ok (numeral, rest) => (.number numeral, some rest)
  | .error stop => halted stop

/-! ## Values -/

mutual

/-- Reads a value. -/
def readValue : (fuel : Nat) → List Char → Draft × Option (List Char)
  | 0, _ => (.absent, none)
  | fuel + 1, text =>
    match skipSpace text with
    | [] => (.absent, none)
    | '"' :: rest => readText rest
    | '[' :: rest =>
      match skipSpace rest with
      | ']' :: rest => (.array .closed, some rest)
      | rest =>
        let (items, rest) := readItems fuel rest
        (.array items, rest)
    | '\x7b' :: rest =>
      match skipSpace rest with
      | '\x7d' :: rest => (.object .closed, some rest)
      | rest =>
        let (members, rest) := readMembers fuel rest
        (.object members, rest)
    | 'n' :: rest => readConstant "ull".toList .null rest
    | 't' :: rest => readConstant "rue".toList (.boolean true) rest
    | 'f' :: rest => readConstant "alse".toList (.boolean false) rest
    | c :: rest =>
      if c = '-' ∨ (Decimal.digit? 10 c).isSome then readNumeral (c :: rest) else (.stray, none)

/-- Reads an item of an array and what follows it. -/
def readItems : (fuel : Nat) → List Char → Items × Option (List Char)
  | 0, _ => (.stopped .endOfInput, none)
  | fuel + 1, text =>
    match readValue fuel text with
    | (value, none) => (.item value (.stopped .malformed), none)
    | (value, some rest) =>
      match skipSpace rest with
      | ',' :: rest =>
        let (items, rest) := readItems fuel rest
        (.item value items, rest)
      | ']' :: rest => (.item value .closed, some rest)
      | [] => (.item value (.stopped .endOfInput), none)
      | _ => (.item value (.stopped .malformed), none)

/-- Reads a member of an object and what follows it. -/
def readMembers : (fuel : Nat) → List Char → Members × Option (List Char)
  | 0, _ => (.stopped .endOfInput, none)
  | fuel + 1, text =>
    match readValue fuel text with
    | (.text asked skipped, some rest) =>
      let key := Draft.text asked skipped
      match skipSpace rest with
      | ':' :: rest =>
        match readValue fuel rest with
        | (value, none) => (.member key value (.stopped .malformed), none)
        | (value, some rest) =>
          match skipSpace rest with
          | ',' :: rest =>
            let (members, rest) := readMembers fuel rest
            (.member key value members, rest)
          | '\x7d' :: rest => (.member key value .closed, some rest)
          | [] => (.member key value (.stopped .endOfInput), none)
          | _ => (.member key value (.stopped .malformed), none)
      | [] => (.member key .absent (.stopped .malformed), none)
      | _ => (.member key .stray (.stopped .malformed), none)
    | (key, _) => (.member key .stray (.stopped .malformed), none)

end

/-- A text read as one document. -/
structure Document where
  root : Draft
  /-- What follows the document: nothing but blanks, or something else. -/
  finished : Bool

/-- Reads a text as one document. -/
def Document.read (text : String) : Document :=
  let chars := text.toList
  match readValue (2 * chars.length + 2) chars with
  | (root, some rest) => ⟨root, skipSpace rest = []⟩
  | (root, none) => ⟨root, false⟩

end TicketPress.Json
