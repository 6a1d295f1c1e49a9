import TicketPress.Json.Fault
import TicketPress.Text.Lines

/-!
# Texts between quotes

A text of a document is scanned in two steps. The scan splits what stands
between the quotes into characters and UTF-16 units and finds the closing
quote; joining the units of a pair into one character comes second. A text
that is only passed over takes the first step alone, so a lone surrogate in it
is no fault.
-/

namespace TicketPress.Json

/-- A piece of a text between quotes. -/
inductive Piece where
  /-- A character, written as it is or by a short escape. -/
  | char (c : Char)
  /-- A UTF-16 unit, written as four hexadecimal digits. -/
  | unit (value : Nat)
  deriving Repr, DecidableEq

/-- The character a short escape stands for. -/
def shortEscape? : Char → Option Char
  | '"' => some '"'
  | '\\' => some '\\'
  | '/' => some '/'
  | 'b' => some '\x08'
  | 'f' => some '\x0c'
  | 'n' => some '\n'
  | 'r' => some '\r'
  | 't' => some '\t'
  | _ => none

/-- The pieces of a text up to its closing quote and what follows the quote,
or why there is no closing quote. A unit needs four more bytes of input before
its digits are looked at. -/
def scanText : List Char → List Piece × Except Cause (List Char)
  | [] => ([], .error .endOfInput)
  | '"' :: rest => ([], .ok rest)
  | ['\\'] => ([], .error .endOfInput)
  | '\\' :: 'u' :: a :: b :: c :: d :: rest =>
    match Decimal.read? 16 [a, b, c, d] with
    | some value =>
      let (pieces, stop) := scanText rest
      (.unit value :: pieces, stop)
    | none => ([], .error .malformed)
  | '\\' :: 'u' :: rest =>
    ([], .error (if Text.byteLength rest < 4 then .endOfInput else .malformed))
  | '\\' :: e :: rest =>
    match shortEscape? e with
    | some c =>
      let (pieces, stop) := scanText rest
      (.char c :: pieces, stop)
    | none => ([], .error .malformed)
  | c :: rest =>
    if c.toNat < 0x20 then ([], .error .malformed)
    else
      let (pieces, stop) := scanText rest
      (.char c :: pieces, stop)

/-- A unit that must be followed by a second one. -/
def isLeading (unit : Nat) : Bool := 0xD800 ≤ unit && unit ≤ 0xDBFF

/-- A unit that must follow a first one. -/
def isTrailing (unit : Nat) : Bool := 0xDC00 ≤ unit && unit ≤ 0xDFFF

/-- The character of two units that belong together. -/
def joined (leading trailing : Nat) : Char :=
  Char.ofNat (0x10000 + (leading - 0xD800) * 0x400 + (trailing - 0xDC00))

/-- The text the pieces stand for. `stop` is why the scan ended, if not at a
closing quote; a unit without its partner comes before it. -/
def joinPieces (stop : Option Cause) : List Piece → Except Cause (List Char)
  | [] =>
    match stop with
    | none => .ok []
    | some cause => .error cause
  | .char c :: pieces => (joinPieces stop pieces).map (c :: ·)
  | .unit u :: .unit v :: pieces =>
    if isTrailing u then .error .malformed
    else if isLeading u then
      if isTrailing v then (joinPieces stop pieces).map (joined u v :: ·)
      else .error .malformed
    else (joinPieces stop (.unit v :: pieces)).map (Char.ofNat u :: ·)
  | .unit u :: pieces =>
    if isTrailing u then .error .malformed
    else if isLeading u then
      match pieces, stop with
      | [], some cause => .error cause
      | _, _ => .error .malformed
    else (joinPieces stop pieces).map (Char.ofNat u :: ·)

end TicketPress.Json
