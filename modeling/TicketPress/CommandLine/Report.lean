import TicketPress.Diagnostic.Basic
import TicketPress.Text.Lines

/-!
# Diagnostics for people

A diagnostic about a line becomes a report: a headline, a label for the line,
and for a warning what the code means at length. One without a place becomes a
note of two lines. Spans are offsets in bytes, but a report counts them off in
characters when it looks for the place of its label. A label that does not end
within the characters of the script is left out, and one whose last offset is
not even the end of the script takes the explanation with it.
-/

namespace TicketPress.CommandLine

/-- What a diagnostic says about its line. -/
def label (diagnostic : Diagnostic) : String :=
  match Code.ofId? diagnostic.id with
  | some .incompleteInstruction =>
    match diagnostic.contextOf? "opcode" with
    | some name => "`" ++ name ++ "` needs one more byte"
    | none => diagnostic.message
  | some .invalidNumber =>
    match diagnostic.contextOf? "token" with
    | some token => "`" ++ token ++ "` is not a byte value"
    | none => diagnostic.message
  | some .unrecognizedInstruction =>
    match diagnostic.contextOf? "bytes" with
    | some bytes => "bytes [" ++ bytes ++ "] match no instruction"
    | none => "arguments are not a known instruction shape"
  | some .trailerSkipped => "printed by the generator after the last element"
  | _ => diagnostic.message

/-- The end of a span, cut to the bytes of the script. -/
def endWithin (script : List Char) (span : Span) : Nat :=
  min span.stop (Text.byteLength script)

/-- Whether a report finds the place of its label in the script: the last
offset of the span is one of its characters, or its end. -/
def hasPlace (script : List Char) (span : Span) : Bool :=
  endWithin script span ≤ script.length + 1

/-- Whether a report can draw its label: the span lies within the script. -/
def hasLabel (script : List Char) (span : Span) : Bool :=
  endWithin script span ≤ script.length

/-- The headline of a report. -/
def headline (diagnostic : Diagnostic) : String :=
  "[" ++ diagnostic.id ++ "] " ++ (if diagnostic.isWarning then "Warning" else "Advice") ++
    ": " ++ diagnostic.message

/-- The explanation in a report; only a warning has one. -/
def helpLines (diagnostic : Diagnostic) : List String :=
  if diagnostic.isWarning then (diagnostic.explanation?.toList).map ("help: " ++ ·) else []

/-- The lines of a diagnostic about a script. -/
def reportLines (script : List Char) (diagnostic : Diagnostic) : List String :=
  match diagnostic.span with
  | some span =>
    headline diagnostic ::
      ((if hasLabel script span then ["label: " ++ label diagnostic] else []) ++
        if hasPlace script span then helpLines diagnostic else [])
  | none =>
    let kind := if diagnostic.isWarning then "warning" else "note"
    (kind ++ "[" ++ diagnostic.id ++ "]: " ++ diagnostic.message) ::
      (diagnostic.explanation?.toList).map ("  = help: " ++ ·)

/-- The lines of all diagnostics about a script. -/
def allReportLines (script : List Char) (diagnostics : List Diagnostic) : List String :=
  diagnostics.flatMap (reportLines script)

/-- A number of things of one kind, with the plural where it is due. -/
def countText (n : Nat) (thing : String) : String :=
  String.ofList (Decimal.write n) ++ " " ++ thing ++ if n = 1 then "" else "s"

/-- How many warnings and notes there are, on one line if there are any. -/
def summaryLines (diagnostics : List Diagnostic) : List String :=
  let warnings := diagnostics.countP Diagnostic.isWarning
  let notes := diagnostics.length - warnings
  let parts :=
    (if 0 < warnings then [countText warnings "warning"] else []) ++
      if 0 < notes then [countText notes "note"] else []
  if parts = [] then [] else [", ".intercalate parts]

end TicketPress.CommandLine
