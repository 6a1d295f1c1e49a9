import TicketPress.Proofs.Script.Places

/-!
# A reset isolates what stands before it

Recovery hands on two things from line to line: the state of the printer, and
the place the next line has. A line that resets the printer brings the state
back to what a script starts with, whatever came before, so what follows it is
recovered as a script of its own, only further on: `recover_resetBetween`.
-/

namespace TicketPress

/-- The statement that resets the printer. -/
def resetStatement : List Char := "BinaryOut(0x1B, 0x40);".toList

/-- Two scripts with a line between them that resets the printer. -/
def resetBetween (a b : List Char) : List Char := a ++ '\n' :: (resetStatement ++ '\n' :: b)

theorem recognize_resetStatement :
    (liveCode? resetStatement).map recognize = some (.instruction .reset) := by
  decide +kernel

theorem pieces_resetBetween (a b : List Char) :
    Text.pieces (resetBetween a b) = Text.pieces a ++ resetStatement :: Text.pieces b := by
  have hline : Text.pieces resetStatement = [resetStatement] :=
    Text.pieces_of_not_mem (by decide)
  rw [resetBetween, Text.pieces_append_lineFeed, Text.pieces_append_lineFeed, hline]
  rfl

/-! ## Items -/

/-- The printer is reset, in whatever state it was left. -/
theorem recoverItems_resetBetween (a b : List Char) :
    recoverItems (resetBetween a b) = recoverItems a ++ recoverItems b := by
  have hreset : ∀ printer : Printer,
      printer.gather (readings (resetStatement :: Text.pieces b)) =
        Printer.initial.gather (readings (Text.pieces b)) := by
    intro printer
    rw [readings_cons, recognize_resetStatement]
    rfl
  rw [recoverItems_eq, recoverItems_eq, recoverItems_eq, pieces_resetBetween, readings_append,
    Printer.gather_append, hreset]

/-! ## Places -/

/-- The lines of the second script stand behind those of the first one and the
reset. -/
theorem placedLines_resetBetween (a b : List Char) :
    ∃ number start, placedLines (resetBetween a b) =
      placedLines a ++ ⟨number, start, resetStatement⟩ ::
        (placedLines b).map (PlacedLine.movedBy (a.count '\n' + 2)
          (Text.byteLength a + Text.byteLength resetStatement + 2)) := by
  have hnumber : 1 + (Text.pieces a).length + 1 = 1 + (a.count '\n' + 2) := by
    rw [Text.length_pieces]
    omega
  have hstart : 0 + bytesOfLines (Text.pieces a) + Text.byteLength resetStatement + 1 =
      0 + (Text.byteLength a + Text.byteLength resetStatement + 2) := by
    rw [bytesOfLines_pieces]
    omega
  refine ⟨1 + (Text.pieces a).length, 0 + bytesOfLines (Text.pieces a), ?_⟩
  rw [placedLines, pieces_resetBetween, placeFrom_append, placeFrom, hnumber, hstart,
    placeFrom_movedBy]
  rfl

theorem spanned_resetBetween (a b : List Char) :
    (recover (resetBetween a b)).spanned =
      (recover a).spanned ++ (recover b).spanned.map (Diagnostic.movedBy (a.count '\n' + 2)
        (Text.byteLength a + Text.byteLength resetStatement + 2)) := by
  obtain ⟨number, start, hplaced⟩ := placedLines_resetBetween a b
  have hreset : PlacedLine.diagnostic? ⟨number, start, resetStatement⟩ = none := by
    rw [PlacedLine.diagnostic?, recognize_resetStatement]
    rfl
  rw [spanned_recover, spanned_recover, spanned_recover, hplaced, List.filterMap_append,
    List.filterMap_cons_none hreset, List.filterMap_map, List.map_filterMap]
  refine congrArg _ (List.filterMap_congr fun line _ => ?_)
  exact line.diagnostic?_movedBy _ _

/-! ## Both together -/

/-- Two scripts with a reset between them give what each of them gives: the
items of the first and then those of the second, and the diagnostics that have
a place likewise, those of the second as many lines and bytes further on as
stand before it. The note that there is no element is given, after all others,
if neither of them holds one. -/
theorem recover_resetBetween (a b : List Char) :
    (recover (resetBetween a b)).items = (recover a).items ++ (recover b).items ∧
    (recover (resetBetween a b)).spanned =
      (recover a).spanned ++ (recover b).spanned.map (Diagnostic.movedBy (a.count '\n' + 2)
        (Text.byteLength a + Text.byteLength resetStatement + 2)) ∧
    (recover (resetBetween a b)).diagnostics = (recover (resetBetween a b)).spanned ++
      (if (recover a).items = [] ∧ (recover b).items = [] then [noElementsNote] else []) ∧
    ((∃ d ∈ (recover (resetBetween a b)).diagnostics, d.id = Code.noElements.id) ↔
      (recover a).items = [] ∧ (recover b).items = []) := by
  have hitems : (recover (resetBetween a b)).items = (recover a).items ++ (recover b).items :=
    recoverItems_resetBetween a b
  refine ⟨hitems, spanned_resetBetween a b, ?_, ?_⟩
  · rw [spanned_recover, recover_diagnostics]
    simp only [hitems, List.append_eq_nil_iff]
  · rw [exists_noElements_iff, hitems, List.append_eq_nil_iff]

end TicketPress
