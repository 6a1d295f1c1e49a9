import TicketPress.Proofs.Decimal.Reading
import TicketPress.Proofs.Script.Accounts

/-!
# Diagnostics and their places

A line is recognised by its text, and the state of the printer has no part in
what is said about it. So the diagnostics of a script are those of its lines
one by one (`recover_diagnostics`), and the place of a line shows in its
diagnostic in two ways only, as the span and as the number of the line in the
context. `PlacedLine.diagnostic?_movedBy` says what happens to both when a line
moves, and that nothing else does.
-/

namespace TicketPress

/-! ## Line by line -/

/-- The diagnostic about a line. -/
def PlacedLine.diagnostic? (line : PlacedLine) : Option Diagnostic :=
  ((liveCode? line.text).map recognize).bind (Recognition.diagnostic? line)

theorem recoverFrom_diagnostics (printer : Printer) (lines : List PlacedLine) :
    (recoverFrom printer lines).diagnostics = lines.filterMap PlacedLine.diagnostic? := by
  induction lines generalizing printer with
  | nil => rfl
  | cons line lines ih =>
      rw [recoverFrom, List.filterMap_cons, PlacedLine.diagnostic?]
      cases (liveCode? line.text).map recognize with
      | none => exact ih printer
      | some r =>
          simp only [Option.bind_some, ih]
          cases r.diagnostic? line with
          | none => rfl
          | some d => rfl

/-- The diagnostics of a script are those of its lines, with the note about a
script without elements after them. -/
theorem recover_diagnostics (script : List Char) :
    (recover script).diagnostics = (placedLines script).filterMap PlacedLine.diagnostic? ++
      if (recover script).items = [] then [noElementsNote] else [] := by
  have hlines := recoverFrom_diagnostics .initial (placedLines script)
  unfold recover
  dsimp only
  split <;> simp [hlines]

/-- The diagnostics that have a place in the script. -/
def Recovery.spanned (found : Recovery) : List Diagnostic :=
  found.diagnostics.filter fun d => d.span.isSome

/-- What is said about a line says where it is. -/
theorem PlacedLine.isAbout_of_diagnostic? {line : PlacedLine} {d : Diagnostic}
    (h : line.diagnostic? = some d) : d.IsAbout line := by
  obtain ⟨r, hr, hd⟩ := Option.bind_eq_some_iff.mp h
  obtain ⟨code, hcode, rfl⟩ := Option.map_eq_some_iff.mp hr
  obtain ⟨account, haccount, -, hdiagnostic⟩ := exists_account .initial line hcode
  rw [hd] at hdiagnostic
  cases account with
  | diagnostic given =>
      obtain rfl : given = d := by simpa [Account.diagnostic?] using hdiagnostic
      exact haccount.1
  | _ => simp [Account.diagnostic?] at hdiagnostic

theorem spanned_recover (script : List Char) :
    (recover script).spanned = (placedLines script).filterMap PlacedLine.diagnostic? := by
  have hlines : ∀ d ∈ (placedLines script).filterMap PlacedLine.diagnostic?,
      d.span.isSome = true := by
    intro d hd
    obtain ⟨line, -, hline⟩ := List.mem_filterMap.mp hd
    rw [(PlacedLine.isAbout_of_diagnostic? hline).span]
    rfl
  have hnote : (if (recover script).items = [] then [noElementsNote] else []).filter
      (fun d => d.span.isSome) = [] := by
    split <;> rfl
  rw [Recovery.spanned, recover_diagnostics, List.filter_append, hnote, List.append_nil,
    List.filter_eq_self.mpr hlines]

/-- A script gets the note that it holds no element exactly if it holds none. -/
theorem exists_noElements_iff (script : List Char) :
    (∃ d ∈ (recover script).diagnostics, d.id = Code.noElements.id) ↔
      (recover script).items = [] := by
  rw [recover_diagnostics]
  constructor
  · rintro ⟨d, hd, hid⟩
    rcases List.mem_append.mp hd with hline | hnote
    · obtain ⟨line, -, hline⟩ := List.mem_filterMap.mp hline
      exact absurd hid (PlacedLine.isAbout_of_diagnostic? hline).id_ne
    · by_contra hitems
      simp [hitems] at hnote
  · intro hitems
    exact ⟨noElementsNote, by simp [hitems], rfl⟩

/-! ## What a line says apart from its place -/

/-- What is recognised gets no diagnostic anywhere, or it gets the same one
everywhere but for the place. -/
theorem Recognition.diagnostic?_cases (r : Recognition) :
    (∀ line, r.diagnostic? line = none) ∨
    ∃ (code : Code) (severity : Severity) (message : String) (more : List (String × String)),
      (∀ entry ∈ more, entry.1 ≠ "line") ∧
      ∀ line, r.diagnostic? line = some (line.diagnostic code severity message more) := by
  cases r with
  | instruction i =>
      cases i with
      | feedAndCut dots => exact Or.inr ⟨_, _, _, [], by simp, fun line => rfl⟩
      | _ => exact Or.inl fun line => rfl
  | incomplete command => exact Or.inr ⟨_, _, _, [_], by simp, fun line => rfl⟩
  | invalidNumber spelling => exact Or.inr ⟨_, _, _, [_], by simp, fun line => rfl⟩
  | unrecognized bytes =>
      refine Or.inr ⟨_, _, _, _, ?_, fun line => rfl⟩
      intro entry hentry
      obtain ⟨bytes, -, rfl⟩ := List.mem_map.mp hentry
      simp

/-! ## Lines that move -/

/-- The span so many bytes further on. -/
def Span.movedBy (bytes : Nat) (span : Span) : Span := ⟨span.start + bytes, span.stop + bytes⟩

/-- The context with the number of the line so many lines further on. -/
def Bindings.lineMovedBy (lines : Nat) (context : Bindings) : Bindings :=
  match (context.find? "line").bind fun text => Decimal.read? 10 text.toList with
  | some number => context.insert "line" (String.ofList (Decimal.write (number + lines)))
  | none => context

/-- The diagnostic as it is so many lines and bytes further on. -/
def Diagnostic.movedBy (lines bytes : Nat) (d : Diagnostic) : Diagnostic :=
  { d with
    span := d.span.map (Span.movedBy bytes)
    context := d.context.map (Bindings.lineMovedBy lines) }

namespace PlacedLine

/-- The line so many lines and bytes further on. -/
def movedBy (lines bytes : Nat) (line : PlacedLine) : PlacedLine :=
  ⟨line.number + lines, line.start + bytes, line.text⟩

theorem span_movedBy (lines bytes : Nat) (line : PlacedLine) :
    (line.movedBy lines bytes).span = line.span.movedBy bytes := by
  simp only [span, movedBy, Span.movedBy, Span.mk.injEq, true_and]
  omega

/-- The context of a line gives its number, which is read back. -/
theorem lineMovedBy_context (lines bytes : Nat) (line : PlacedLine)
    {more : List (String × String)} (hmore : ∀ entry ∈ more, entry.1 ≠ "line") :
    (line.context more).lineMovedBy lines = (line.movedBy lines bytes).context more := by
  have hinsert : ∀ text, (line.context more).insert "line" text =
      .ofList (("line", text) :: more) :=
    fun text => Bindings.insert_ofList_cons hmore _ text
  have hfind : (line.context more).find? "line" =
      some (String.ofList (Decimal.write line.number)) := by
    -- Binding the number once more changes nothing, so it is bound already.
    have hagain := hinsert (String.ofList (Decimal.write line.number))
    have hsame : line.context more =
        (line.context more).insert "line" (String.ofList (Decimal.write line.number)) :=
      hagain.symm
    rw [hsame, Bindings.find?_insert, if_pos rfl]
  rw [Bindings.lineMovedBy, hfind, Option.bind_some, String.toList_ofList, Decimal.read?_write]
  exact hinsert _

/-- What is said about a line moves with it. -/
theorem diagnostic?_movedBy (lines bytes : Nat) (line : PlacedLine) :
    (line.movedBy lines bytes).diagnostic? =
      line.diagnostic?.map (Diagnostic.movedBy lines bytes) := by
  have hone : ∀ r : Recognition, r.diagnostic? (line.movedBy lines bytes) =
      (r.diagnostic? line).map (Diagnostic.movedBy lines bytes) := by
    intro r
    rcases r.diagnostic?_cases with hnone | ⟨code, severity, message, more, hmore, hsome⟩
    · rw [hnone, hnone, Option.map_none]
    · rw [hsome, hsome, Option.map_some, diagnostic, diagnostic, Diagnostic.movedBy]
      simp only [Option.map_some, span_movedBy, lineMovedBy_context lines bytes line hmore]
  rw [diagnostic?, diagnostic?, Option.map_bind]
  exact congrArg (Option.bind _) (funext hone)

end PlacedLine

/-- Lines placed further on are the same lines moved. -/
theorem placeFrom_movedBy (lines bytes number start : Nat) (list : List (List Char)) :
    placeFrom (number + lines) (start + bytes) list =
      (placeFrom number start list).map (PlacedLine.movedBy lines bytes) := by
  induction list generalizing number start with
  | nil => rfl
  | cons text list ih =>
      have hnumber : number + lines + 1 = number + 1 + lines := by omega
      have hstart : start + bytes + Text.byteLength text + 1 =
          start + Text.byteLength text + 1 + bytes := by omega
      rw [placeFrom, placeFrom, List.map_cons, hnumber, hstart, ih]
      rfl

/-- The bytes of lines, the line feed after each of them included. -/
def bytesOfLines : List (List Char) → Nat
  | [] => 0
  | text :: lines => Text.byteLength text + 1 + bytesOfLines lines

theorem placeFrom_append (number start : Nat) (a b : List (List Char)) :
    placeFrom number start (a ++ b) =
      placeFrom number start a ++ placeFrom (number + a.length) (start + bytesOfLines a) b := by
  induction a generalizing number start with
  | nil => rfl
  | cons text a ih =>
      have hnumber : number + 1 + a.length = number + (text :: a).length := by
        rw [List.length_cons]
        omega
      have hstart : start + Text.byteLength text + 1 + bytesOfLines a =
          start + bytesOfLines (text :: a) := by
        rw [bytesOfLines]
        omega
      rw [List.cons_append, placeFrom, placeFrom, ih, hnumber, hstart, List.cons_append]

/-- The pieces of a text have its bytes and one for a line feed after the last. -/
theorem bytesOfLines_pieces (text : List Char) :
    bytesOfLines (Text.pieces text) = Text.byteLength text + 1 := by
  induction text with
  | nil => rfl
  | cons c text ih =>
      by_cases hc : c = '\n'
      · subst hc
        have hsize : '\n'.utf8Size = 1 := rfl
        rw [Text.pieces_lineFeed, Text.byteLength_cons]
        simp only [bytesOfLines, Text.byteLength_nil] at ih ⊢
        omega
      · rw [Text.pieces_cons hc, Text.byteLength_cons]
        cases hpieces : Text.pieces text with
        | nil => exact absurd hpieces (Text.pieces_ne_nil text)
        | cons first rest =>
            simp only [hpieces, bytesOfLines, List.modifyHead_cons, Text.byteLength_cons] at ih ⊢
            omega

end TicketPress
