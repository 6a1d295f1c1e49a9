import TicketPress.Diagnostic.Basic
import TicketPress.Json.Writer

/-!
# Diagnostics in documents

A diagnostic is written as an object of its parts; the span and the context
are left out when there are none. When it is read these two may also be
`null`, and an array of all parts in their order is taken as well. A span that
is read is not checked: its offsets may stand in any order.
-/

namespace TicketPress

open Json (Value Draft Answer)

/-! ## Writing -/

/-- The words for the severities. -/
def Severity.words : List (String × Severity) :=
  [("error", .error), ("warn", .warning), ("info", .note)]

/-- The severity a word means. -/
@[simp] theorem Severity.variant_word (s : Severity) :
    Json.variant Severity.words s.word = .ok s := by cases s <;> rfl

/-- A span as a document. -/
def Span.encode (span : Span) : Value :=
  .object [("start", .ofNat span.start), ("end", .ofNat span.stop)]

/-- A diagnostic as a document. -/
def Diagnostic.encode (diagnostic : Diagnostic) : Value :=
  .object
    ([("id", .text diagnostic.id), ("severity", .text diagnostic.severity.word),
      ("message", .text diagnostic.message)] ++
      Json.optionalMember "span" (diagnostic.span.map Span.encode) ++
      Json.optionalMember "context" (diagnostic.context.map Bindings.encode))

/-- Diagnostics as a document. -/
def encodeDiagnostics (diagnostics : List Diagnostic) : Value :=
  .array (diagnostics.map Diagnostic.encode)

/-! ## Reading a span -/

/-- What has been met of a span. -/
structure SpanFields where
  start : Option Nat := none
  stop : Option Nat := none

/-- A member of a span. -/
def SpanFields.step (fields : SpanFields) (name : String) (draft : Draft) :
    Answer SpanFields :=
  match name with
  | "start" => do return { fields with start := ← Json.fill name fields.start draft.asOffset }
  | "end" => do return { fields with stop := ← Json.fill name fields.stop draft.asOffset }
  | _ => do
    draft.ignore
    return fields

/-- What a span written as an array has to hold. -/
def spanItems : String := "struct Span with 2 elements"

/-- A span of a document. -/
def Span.ask (depth : Nat) : Draft → Answer Span
  | .object members => do
    let _ ← Answer.lift (Json.enter depth)
    let fields ← members.collect SpanFields.step {}
    return ⟨← Json.require "start" fields.start, ← Json.require "end" fields.stop⟩
  | .array items => do
    let _ ← Answer.lift (Json.enter depth)
    let (start, items) ← items.takeField 0 spanItems Draft.asOffset
    let (stop, items) ← items.takeField 1 spanItems Draft.asOffset
    items.finish
    return ⟨start, stop⟩
  | draft => draft.mismatch "struct Span"

/-! ## Reading a diagnostic -/

/-- What has been met of a diagnostic. -/
structure DiagnosticFields where
  id : Option String := none
  severity : Option Severity := none
  message : Option String := none
  span : Option (Option Span) := none
  context : Option (Option Bindings) := none

/-- A member of a diagnostic, at the depth inside it. -/
def DiagnosticFields.step (depth : Nat) (fields : DiagnosticFields) (name : String)
    (draft : Draft) : Answer DiagnosticFields :=
  match name with
  | "id" => do return { fields with id := ← Json.fill name fields.id (draft.asText "a string") }
  | "severity" => do
    return { fields with
      severity := ← Json.fill name fields.severity (draft.asVariant Severity.words depth) }
  | "message" => do
    return { fields with message := ← Json.fill name fields.message (draft.asText "a string") }
  | "span" => do
    return { fields with span := ← Json.fill name fields.span (draft.asOption (Span.ask depth)) }
  | "context" => do
    return { fields with
      context := ← Json.fill name fields.context (draft.asOption (Bindings.ask depth)) }
  | _ => do
    draft.ignore
    return fields

/-- The diagnostic the fields make up. -/
def DiagnosticFields.finish (fields : DiagnosticFields) : Answer Diagnostic := do
  return {
    id := ← Json.require "id" fields.id
    severity := ← Json.require "severity" fields.severity
    message := ← Json.require "message" fields.message
    span := fields.span.getD none
    context := fields.context.getD none }

/-- What a diagnostic written as an array has to hold. -/
def diagnosticItems : String := "struct Diagnostic with 5 elements"

/-- A diagnostic of a document. -/
def Diagnostic.ask (depth : Nat) : Draft → Answer Diagnostic
  | .object members => do
    let inner ← Answer.lift (Json.enter depth)
    (← members.collect (DiagnosticFields.step inner) {}).finish
  | .array items => do
    let inner ← Answer.lift (Json.enter depth)
    let (id, items) ← items.takeField 0 diagnosticItems (Draft.asText · "a string")
    let (severity, items) ←
      items.takeField 1 diagnosticItems (Draft.asVariant Severity.words inner)
    let (message, items) ← items.takeField 2 diagnosticItems (Draft.asText · "a string")
    let (span, items) ← items.takeField 3 diagnosticItems (Draft.asOption (Span.ask inner))
    let (context, items) ←
      items.takeField 4 diagnosticItems (Draft.asOption (Bindings.ask inner))
    items.finish
    return { id, severity, message, span, context }
  | draft => draft.mismatch "struct Diagnostic"

/-- Reads the text of one diagnostic. -/
def Diagnostic.read (text : String) : Answer Diagnostic := Json.decode Diagnostic.ask text

end TicketPress
