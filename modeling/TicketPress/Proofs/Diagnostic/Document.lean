import TicketPress.CommandLine.Run
import TicketPress.Proofs.Element.Document
import TicketPress.Proofs.Script.Accounts

/-!
# Reading back diagnostics

A diagnostic is written with its span and its context only where it has them,
so an absent part and a part that holds nothing have different documents, and
both come back as they were. What a document can hold is an offset of 64 bits.
The offsets of a text that fits into memory are such offsets, so what `parse`
prints can be read back: its diagnostics and its elements.
-/

namespace TicketPress

open Json (Value Draft Answer)

/-! ## Spans -/

/-- The offsets have 64 bits. -/
structure Span.Fits (span : Span) : Prop where
  start : span.start ≤ Json.largest
  stop : span.stop ≤ Json.largest

/-- A span is read back, also one whose offsets are in the wrong order. -/
theorem Span.ask_encode {span : Span} (h : span.Fits) {depth : Nat} (hdepth : 1 < depth) :
    Span.ask depth span.encode.draft = .ok span := by
  have hstart := Json.asOffset_draft_ofNat h.start
  have hstop := Json.asOffset_draft_ofNat h.stop
  simp only [encode, Json.draft_object, ask, Json.enter_of_lt hdepth, Json.lift_ok,
    Json.collect_draftMembers, List.foldlM_cons, List.foldlM_nil, SpanFields.step, hstart, hstop,
    Json.fill, Json.require, Except.map, Bind.bind, Except.bind, Pure.pure, Except.pure]

/-! ## Diagnostics -/

/-- The span of a diagnostic, if there is one, has offsets of 64 bits. -/
def Diagnostic.Fits (diagnostic : Diagnostic) : Prop := ∀ span ∈ diagnostic.span, span.Fits

namespace DiagnosticFields

/-- What has been met of a diagnostic after the parts that are never left out. -/
def named (diagnostic : Diagnostic) : DiagnosticFields where
  id := some diagnostic.id
  severity := some diagnostic.severity
  message := some diagnostic.message

/-- The member of a document that is met next. -/
def meet (depth : Nat) (fields : DiagnosticFields) (member : String × Value) :
    Answer DiagnosticFields :=
  fields.step depth member.1 member.2.draft

theorem foldlM_named (depth : Nat) (diagnostic : Diagnostic) :
    [("id", Value.text diagnostic.id), ("severity", .text diagnostic.severity.word),
      ("message", .text diagnostic.message)].foldlM (meet depth) {} = .ok (named diagnostic) := by
  have hword := Json.asVariant_draft diagnostic.severity.variant_word depth
  simp only [List.foldlM_cons, List.foldlM_nil, meet, step, hword]
  rfl

/-- A span that is there is met, and nothing is met of one that is not. -/
theorem foldlM_span {depth : Nat} (hdepth : 1 < depth) (fields : DiagnosticFields)
    (h : fields.span = none) {span : Option Span} (hfits : ∀ given ∈ span, given.Fits) :
    (Json.optionalMember "span" (span.map Span.encode)).foldlM (meet depth) fields =
      .ok { fields with span := span.map some } := by
  cases span with
  | none => exact congrArg Except.ok (by rw [Option.map_none, ← h])
  | some given =>
      have hasked : given.encode.draft.asOption (Span.ask depth) = .ok (some given) :=
        Json.asOption_eq (Span.ask_encode (hfits given rfl) hdepth) (by simp [Span.encode])
      simp only [Json.optionalMember, Option.map_some, Option.toList_some, List.map_singleton,
        List.foldlM_cons, List.foldlM_nil, meet, step, h, hasked]
      rfl

/-- So it is with a context, which may hold nothing and still be there. -/
theorem foldlM_context {depth : Nat} (hdepth : 1 < depth) (fields : DiagnosticFields)
    (h : fields.context = none) (context : Option Bindings) :
    (Json.optionalMember "context" (context.map Bindings.encode)).foldlM (meet depth) fields =
      .ok { fields with context := context.map some } := by
  cases context with
  | none => exact congrArg Except.ok (by rw [Option.map_none, ← h])
  | some given =>
      have hasked : given.encode.draft.asOption (Bindings.ask depth) = .ok (some given) :=
        Json.asOption_eq (given.ask_encode hdepth) (by simp [Bindings.encode])
      simp only [Json.optionalMember, Option.map_some, Option.toList_some, List.map_singleton,
        List.foldlM_cons, List.foldlM_nil, meet, step, h, hasked]
      rfl

/-- What has been met of a diagnostic after all that is written of it. -/
def all (diagnostic : Diagnostic) : DiagnosticFields :=
  { named diagnostic with
    span := diagnostic.span.map some
    context := diagnostic.context.map some }

theorem foldlM_all {depth : Nat} (hdepth : 1 < depth) {diagnostic : Diagnostic}
    (h : diagnostic.Fits) :
    ([("id", Value.text diagnostic.id), ("severity", .text diagnostic.severity.word),
        ("message", .text diagnostic.message)] ++
      Json.optionalMember "span" (diagnostic.span.map Span.encode) ++
      Json.optionalMember "context" (diagnostic.context.map Bindings.encode)).foldlM
        (meet depth) {} = .ok (all diagnostic) := by
  simp only [List.foldlM_append, foldlM_named, foldlM_span hdepth (named diagnostic) rfl h,
    Bind.bind, Except.bind]
  exact foldlM_context hdepth _ rfl diagnostic.context

theorem finish_all (diagnostic : Diagnostic) : (all diagnostic).finish = .ok diagnostic := by
  obtain ⟨id, severity, message, span, context⟩ := diagnostic
  cases span <;> cases context <;> rfl

end DiagnosticFields

namespace Diagnostic

/-- What a diagnostic is asked for is the diagnostic. -/
theorem ask_encode {diagnostic : Diagnostic} (h : diagnostic.Fits) {depth : Nat}
    (hdepth : 2 < depth) : ask depth diagnostic.encode.draft = .ok diagnostic := by
  have hinner : 1 < depth - 1 := by omega
  have hmet := DiagnosticFields.foldlM_all hinner h
  simp only [encode, Json.draft_object, ask, Json.enter_of_lt (Nat.lt_of_succ_lt hdepth),
    Json.lift_ok, Json.collect_draftMembers, Bind.bind, Except.bind]
  unfold DiagnosticFields.meet at hmet
  rw [hmet]
  exact DiagnosticFields.finish_all diagnostic

/-- All numbers of a diagnostic are integers. -/
theorem legible_encode (diagnostic : Diagnostic) : diagnostic.encode.Legible := by
  obtain ⟨id, severity, message, span, context⟩ := diagnostic
  cases span <;> cases context <;>
    simp [encode, Span.encode, Value.ofNat, Json.optionalMember, Value.Legible,
      Json.LegibleMembers, Json.Number.legible_integer, Bindings.legible_encode]

/-- A diagnostic comes back from its document on one line. -/
theorem read_write {diagnostic : Diagnostic} (h : diagnostic.Fits) :
    read diagnostic.encode.write = .ok diagnostic := by
  rw [read, Json.decode_write diagnostic.legible_encode, ask_encode h (by decide)]

end Diagnostic

/-! ## Diagnostics of scripts -/

/-- The offsets in a text are no larger than the text. -/
theorem fits_of_mem_diagnostics {script : String} (hsize : script.utf8ByteSize ≤ Json.largest)
    {diagnostic : Diagnostic} (h : diagnostic ∈ (recover script.toList).diagnostics) :
    diagnostic.Fits := by
  obtain ⟨accounts, haccounts⟩ := exists_accountedBy script.toList
  intro span hspan
  rcases haccounts.about_or_note h with ⟨line, hline, habout⟩ | rfl
  · obtain rfl : line.span = span := by simpa [habout.span] using hspan
    obtain ⟨hstart, hstop, -, -⟩ := (standsIn_of_mem_placedLines hline).span
    exact ⟨hstart.trans (hstop.trans hsize), hstop.trans hsize⟩
  · simp [noElementsNote] at hspan

/-! ## What is printed of a script -/

/-- A recovery as it is printed: the elements have their identities. -/
structure PrintedRecovery where
  elements : List Element := []
  diagnostics : List Diagnostic := []

namespace PrintedRecovery

/-- A member of a printed recovery, at the depth inside it. -/
def step (fresh : Nat → String) (depth : Nat) (found : PrintedRecovery) (name : String)
    (draft : Draft) : Answer PrintedRecovery :=
  match name with
  | "elements" => do return { found with elements := ← Element.askAll fresh depth draft }
  | "diagnostics" => do
    return { found with diagnostics := ← draft.asList depth Diagnostic.ask }
  | _ => do
    draft.ignore
    return found

/-- A printed recovery of a document. -/
def ask (fresh : Nat → String) (depth : Nat) : Draft → Answer PrintedRecovery
  | .object members => do
    let inner ← Answer.lift (Json.enter depth)
    members.collect (step fresh inner) {}
  | draft => draft.mismatch "a recovery"

/-- What is printed of a recovery is read back. -/
theorem ask_encode (fresh fresh' : Nat → String) {found : Recovery}
    (h : ∀ diagnostic ∈ found.diagnostics, diagnostic.Fits) :
    ask fresh' Json.maxDepth (found.encode fresh).draft =
      .ok ⟨found.layout fresh, found.diagnostics⟩ := by
  have helements := Element.askAll_encodeLayout fresh' (found.layout fresh)
    (by decide : 2 < Json.maxDepth - 1)
  have hdiagnostics : (encodeDiagnostics found.diagnostics).draft.asList (Json.maxDepth - 1)
      Diagnostic.ask = .ok found.diagnostics := by
    have hlist := Json.asList_draft Diagnostic.ask Diagnostic.encode id
      (by decide : 1 < Json.maxDepth - 1) found.diagnostics
      fun diagnostic hmem => Diagnostic.ask_encode (h diagnostic hmem) (by decide)
    rwa [List.map_id] at hlist
  have henter := Json.enter_of_lt (by decide : 1 < Json.maxDepth)
  simp only [Recovery.encode, Json.draft_object, ask, henter, Json.lift_ok,
    Json.collect_draftMembers, List.foldlM_cons, List.foldlM_nil, step, helements, hdiagnostics,
    Bind.bind, Except.bind, Pure.pure, Except.pure]

theorem legible_encode (fresh : Nat → String) (found : Recovery) :
    (found.encode fresh).Legible := by
  have hitems : Json.LegibleItems (found.diagnostics.map Diagnostic.encode) := by
    induction found.diagnostics with
    | nil => trivial
    | cons diagnostic diagnostics ih => exact ⟨diagnostic.legible_encode, ih⟩
  exact ⟨legible_encodeLayout _, hitems, trivial⟩

/-- The output of a run that prints a script as a document. -/
theorem output_parse (fresh : Nat → String) {files : CommandLine.Files} {path text : String}
    (hfile : files.entry path = .file text) :
    ((CommandLine.Task.parse path).run fresh files .json).output =
      ((recover text.toList).encode fresh).writePretty ++ "\n" := by
  have hread : CommandLine.readText files path = .ok text := by rw [CommandLine.readText, hfile]
  rw [CommandLine.Task.run, CommandLine.parse, hread]
  rfl

end PrintedRecovery

/-! ## The result -/

/-- Every diagnostic comes back from its document, whatever stands in its texts
and whichever of its parts are there. This holds of all diagnostics about a
script, and what is printed of a script holds all that was recovered. -/
theorem diagnostics_read_back :
    (∀ diagnostic : Diagnostic, diagnostic.Fits →
      Diagnostic.read diagnostic.encode.write = .ok diagnostic) ∧
    ∀ script : String, script.utf8ByteSize ≤ Json.largest →
      (∀ diagnostic ∈ (recover script.toList).diagnostics,
        Diagnostic.read diagnostic.encode.write = .ok diagnostic) ∧
      ∀ (fresh fresh' : Nat → String) (files : CommandLine.Files) (path : String),
        files.entry path = .file script →
          Json.decode (PrintedRecovery.ask fresh')
              ((CommandLine.Task.parse path).run fresh files .json).output =
            .ok ⟨(recover script.toList).layout fresh, (recover script.toList).diagnostics⟩ := by
  refine ⟨fun diagnostic h => Diagnostic.read_write h, fun script hsize => ⟨?_, ?_⟩⟩
  · intro diagnostic hmem
    exact Diagnostic.read_write (fits_of_mem_diagnostics hsize hmem)
  · intro fresh fresh' files path hfile
    have hfits : ∀ diagnostic ∈ (recover script.toList).diagnostics, diagnostic.Fits :=
      fun _ hmem => fits_of_mem_diagnostics hsize hmem
    rw [PrintedRecovery.output_parse fresh hfile,
      Json.decode_writePretty_line (PrintedRecovery.legible_encode fresh _),
      PrintedRecovery.ask_encode fresh fresh' hfits]

/-- A diagnostic with texts that need every kind of escape, the largest offset
in the wrong place, and a name that is empty. -/
def oddDiagnostic : Diagnostic where
  id := "a \"b\" \\ c"
  severity := .note
  message := "寶\t\r\n😀\u0000\u001f\u007f"
  span := some ⟨Json.largest, 0⟩
  context := some (.ofList [("line", "1"), ("", "\"")])

/-- A script with a line of each kind. -/
def mixedScript : String :=
  "BinaryOut(0x1B, 0x61);\r\nBinaryOut(BIG5.GetBytes(\"\\t寶\"));\nBinaryOut(0x1B, 0x4A, 1x);"

/-- Files that hold this script everywhere. -/
def mixedFiles : CommandLine.Files := ⟨fun _ => .file mixedScript, fun _ => true⟩

theorem diagnostics_read_back_odd :
    oddDiagnostic.Fits ∧ Diagnostic.read oddDiagnostic.encode.write = .ok oddDiagnostic ∧
      mixedScript.utf8ByteSize ≤ Json.largest ∧ (recover mixedScript.toList).diagnostics ≠ [] ∧
      Json.decode (PrintedRecovery.ask (freshId 0))
          ((CommandLine.Task.parse "t.txt").run (freshId 0) mixedFiles .json).output =
        .ok ⟨(recover mixedScript.toList).layout (freshId 0),
          (recover mixedScript.toList).diagnostics⟩ := by
  have hfits : oddDiagnostic.Fits := by
    intro span hspan
    obtain rfl : ⟨Json.largest, 0⟩ = span := Option.some.inj hspan
    exact ⟨Nat.le_refl _, Nat.zero_le _⟩
  have hsize : mixedScript.utf8ByteSize ≤ Json.largest := by decide +kernel
  have hsome : (recover mixedScript.toList).diagnostics ≠ [] := by decide +kernel
  exact ⟨hfits, diagnostics_read_back.1 oddDiagnostic hfits, hsize, hsome,
    (diagnostics_read_back.2 mixedScript hsize).2 (freshId 0) (freshId 0) mixedFiles "t.txt" rfl⟩

end TicketPress
