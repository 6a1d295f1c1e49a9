import TicketPress.Script.Token
import TicketPress.Text.Search

/-!
# Calls on a script line

Of the language of the host only calls are read: a dotted name, and in
parentheses arguments that are texts, dotted names or calls themselves.

    expression := TEXT | path [ '(' arguments ')' ]
    path       := WORD ( '.' WORD )*
    arguments  := [ expression ( ',' expression )* ]

Calls may be nested to a bounded depth. A call is looked for by name anywhere
on a line; what stands before it and after its closing parenthesis is not
looked at.
-/

namespace TicketPress

/-- An expression of the host's language. -/
inductive Expr where
  /-- A single name or a number. -/
  | word (spelling : List Char)
  /-- A dotted name of two or more segments. -/
  | path (segments : List (List Char))
  /-- A text between quotes. -/
  | text (body : List Char) (interpolated : Bool)
  | call (callee : List (List Char)) (arguments : List Expr)
  deriving Repr

/-- A call: the segments of its dotted name, and its arguments. -/
structure Call where
  callee : List (List Char)
  arguments : List Expr
  deriving Repr

/-- The call an expression is. -/
def Expr.call? : Expr → Option Call
  | .call callee arguments => some ⟨callee, arguments⟩
  | _ => none

/-- The spelling of an expression that is a single word. -/
def Expr.word? : Expr → Option (List Char)
  | .word spelling => some spelling
  | _ => none

/-! ## Looking inside -/

/-- Whether the segments are those of a dotted name, in letters of either
case. -/
def isNamed (name : List Char) (callee : List (List Char)) : Bool :=
  callee.map Text.lowered == (name.splitOn '.').map Text.lowered

/-- Whether the call is one of the dotted name. -/
def Call.is (call : Call) (name : List Char) : Bool := isNamed name call.callee

mutual

/-- The first call of the name in an expression, itself before its arguments
and these from left to right. -/
def Expr.find? (name : List Char) : Expr → Option Call
  | .call callee arguments =>
    if isNamed name callee then some ⟨callee, arguments⟩ else findAmong? name arguments
  | _ => none

/-- The first call of the name in the expressions of a list. -/
def findAmong? (name : List Char) : List Expr → Option Call
  | [] => none
  | first :: rest => (first.find? name).or (findAmong? name rest)

end

/-- The first call of the name in a call. -/
def Call.find? (call : Call) (name : List Char) : Option Call :=
  (Expr.call call.callee call.arguments).find? name

/-! ## Reading

A reader takes something off the front of a line and gives it with the rest of
the line, or nothing if the line does not start with it.
-/

/-- Reads the segments of a dotted name after the first one. -/
def readSegments : List Lexeme → Option (List (List Char) × List Lexeme)
  | .dot :: .word segment :: rest => do
    let (segments, rest) ← readSegments rest
    return (segment :: segments, rest)
  | .dot :: _ => none
  | rest => some ([], rest)

/-- Reads expressions separated by commas up to the closing parenthesis. Each
takes a lexeme at least, so the length of the line bounds their number. -/
def readList (read : List Lexeme → Option (Expr × List Lexeme)) : (bound : Nat) →
    List Lexeme → Option (List Expr × List Lexeme)
  | 0, _ => none
  | bound + 1, lexemes => do
    let (first, rest) ← read lexemes
    match rest with
    | .comma :: rest => do
      let (others, rest) ← readList read bound rest
      return (first :: others, rest)
    | .closeParen :: rest => return ([first], rest)
    | _ => none

/-- Reads the arguments of a call after its opening parenthesis. -/
def readArguments (read : List Lexeme → Option (Expr × List Lexeme)) :
    List Lexeme → Option (List Expr × List Lexeme)
  | .closeParen :: rest => some ([], rest)
  | lexemes => readList read lexemes.length lexemes

/-- An expression that is a dotted name. -/
def Expr.ofSegments (first : List Char) : List (List Char) → Expr
  | [] => .word first
  | segments => .path (first :: segments)

/-- Reads an expression of at most so many levels. -/
def readExpr : (levels : Nat) → List Lexeme → Option (Expr × List Lexeme)
  | 0, _ => none
  | _ + 1, .text body interpolated :: rest => some (.text body interpolated, rest)
  | levels + 1, .word first :: rest => do
    let (segments, rest) ← readSegments rest
    match rest with
    | .openParen :: rest => do
      let (arguments, rest) ← readArguments (readExpr levels) rest
      return (.call (first :: segments) arguments, rest)
    | rest => return (.ofSegments first segments, rest)
  | _ + 1, _ => none

/-- How deep expressions may stand inside one another in the call that is looked
for. How many of them stand side by side does not matter. -/
def maxNesting : Nat := 64

/-! ## Finding a call on a line -/

/-- Whether a call of the name starts here. -/
def startsCall (name : List Char) : List Lexeme → Bool
  | .word spelling :: .openParen :: _ => Text.sameLetters spelling name
  | _ => false

/-- The line from the first start of a call of the name on. -/
def fromCall? (name : List Char) : List Lexeme → Option (List Lexeme)
  | [] => none
  | lexeme :: rest =>
    if startsCall name (lexeme :: rest) then some (lexeme :: rest) else fromCall? name rest

/-- The lexemes of a line. -/
def lexemes (line : List Char) : List Lexeme := (tokens line).map Token.lexeme

/-- The first call of the name on the line; nothing if it is absent or breaks
the grammar. -/
def findCall (name line : List Char) : Option Call := do
  let start ← fromCall? name (lexemes line)
  let (expr, _) ← readExpr (maxNesting + 1) start
  expr.call?

end TicketPress
