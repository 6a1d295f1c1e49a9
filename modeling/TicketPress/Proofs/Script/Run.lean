import TicketPress.Proofs.Script.CodePart
import TicketPress.Proofs.Script.SafeReading
import TicketPress.Proofs.Text.Pieces
import TicketPress.Script.Recovery

/-!
# Reading a script line by line

Recovery goes over the lines of a script once. Each line is recognised for
itself, and only the state of the printer is handed on, so the run splits
where the list of lines does: `gather_append`. Blanks at the end of a line do
not matter to any of this.
-/

namespace TicketPress

/-! ## Lines -/

/-- What the lines that call the printer are recognised as. -/
def readings (lines : List (List Char)) : List Recognition :=
  lines.filterMap fun line => (liveCode? line).map recognize

@[simp] theorem readings_nil : readings [] = [] := rfl

@[simp] theorem readings_append (a b : List (List Char)) :
    readings (a ++ b) = readings a ++ readings b := List.filterMap_append

theorem readings_cons (line : List Char) (lines : List (List Char)) :
    readings (line :: lines) = ((liveCode? line).map recognize).toList ++ readings lines := by
  rw [readings, List.filterMap_cons]
  cases (liveCode? line).map recognize with
  | none => rfl
  | some r => rfl

theorem readings_map_trimEnd (lines : List (List Char)) :
    readings (lines.map Text.trimEnd) = readings lines := by
  have hlive : ∀ line, liveCode? (Text.trimEnd line) = liveCode? line := by
    intro line
    rw [liveCode?, codePart?_trimEnd, liveCode?]
  simp only [readings, List.filterMap_map, Function.comp_def, hlive]

theorem readings_replicate_nil (k : Nat) : readings (List.replicate k []) = [] := by
  induction k with
  | zero => rfl
  | succ k ih =>
      rw [List.replicate_succ, readings_cons, ih]
      rfl

/-- Trimming a script changes nothing that is recognised. -/
theorem readings_pieces_trimEnd (script : List Char) :
    readings (Text.pieces (Text.trimEnd script)) = readings (Text.pieces script) := by
  obtain ⟨blanks, hblanks, hscript⟩ := Text.exists_eq_trimEnd_append script
  obtain ⟨k, hk⟩ := Text.map_trimEnd_pieces_append hblanks (Text.trimEnd script)
  rw [← hscript] at hk
  rw [← readings_map_trimEnd (Text.pieces script), hk, readings_append,
    readings_replicate_nil, List.append_nil, readings_map_trimEnd]

/-! ## The run -/

namespace Printer

/-- The items that recognised lines give, read on from a state of the printer. -/
def gather : Printer → List Recognition → List Item
  | _, [] => []
  | printer, r :: rest =>
    (r.item? (r.printerAfter printer)).toList ++ gather (r.printerAfter printer) rest

/-- The printer after recognised lines. -/
def afterReadings (printer : Printer) (list : List Recognition) : Printer :=
  list.foldl Recognition.printerAfter printer

@[simp] theorem gather_nil (printer : Printer) : printer.gather [] = [] := rfl

@[simp] theorem afterReadings_nil (printer : Printer) : printer.afterReadings [] = printer := rfl

@[simp] theorem afterReadings_cons (printer : Printer) (r : Recognition)
    (rest : List Recognition) :
    printer.afterReadings (r :: rest) = (r.printerAfter printer).afterReadings rest := rfl

theorem gather_append (printer : Printer) (a b : List Recognition) :
    printer.gather (a ++ b) = printer.gather a ++ (printer.afterReadings a).gather b := by
  induction a generalizing printer with
  | nil => rfl
  | cons r a ih =>
      rw [List.cons_append, gather, gather, ih, afterReadings_cons, List.append_assoc]

theorem afterReadings_append (printer : Printer) (a b : List Recognition) :
    printer.afterReadings (a ++ b) = (printer.afterReadings a).afterReadings b :=
  List.foldl_append

/-- Lines read as instructions leave the printer as the instructions do. -/
theorem afterReadings_instructions (printer : Printer) (list : List Instruction) :
    printer.afterReadings (list.map .instruction) = printer.afterAll list := by
  rw [afterReadings, List.foldl_map]
  rfl

/-- Instructions that print nothing give no items. -/
theorem gather_of_content?_eq_none (printer : Printer) {list : List Instruction}
    (h : ∀ i ∈ list, i.content? = none) : printer.gather (list.map .instruction) = [] := by
  induction list generalizing printer with
  | nil => rfl
  | cons i list ih =>
      have hi : Recognition.item? (printer.after i) (.instruction i) = none := by
        rw [Recognition.item?, item?, h i (by simp), Option.map_none]
      rw [List.map_cons, gather, Recognition.printerAfter, hi,
        ih _ fun j hj => h j (by simp [hj])]
      rfl

end Printer

theorem recoverFrom_items (printer : Printer) (lines : List PlacedLine) :
    (recoverFrom printer lines).items =
      printer.gather (readings (lines.map PlacedLine.text)) := by
  induction lines generalizing printer with
  | nil => rfl
  | cons line lines ih =>
      rw [recoverFrom, List.map_cons, readings_cons]
      cases (liveCode? line.text).map recognize with
      | none => exact ih printer
      | some r => simp [Printer.gather, ih]

theorem map_text_placeFrom (number start : Nat) (lines : List (List Char)) :
    (placeFrom number start lines).map PlacedLine.text = lines := by
  induction lines generalizing number start with
  | nil => rfl
  | cons line lines ih => rw [placeFrom, List.map_cons, ih]

/-- The lines of a script are its pieces. -/
theorem map_text_placedLines (script : List Char) :
    (placedLines script).map PlacedLine.text = Text.pieces script :=
  map_text_placeFrom 1 0 (Text.pieces script)

/-- What is recovered from a script is what the run over its lines gives. -/
theorem recoverItems_eq (script : List Char) :
    recoverItems script = Printer.initial.gather (readings (Text.pieces script)) := by
  have hitems : (recover script).items =
      (recoverFrom .initial (placedLines script)).items := by
    unfold recover
    simp only
    split <;> rfl
  rw [recoverItems, hitems, recoverFrom_items, map_text_placedLines]

/-- Every instruction a script gives is safe. -/
theorem safe_of_mem_readings {script : List Char} {i : Instruction}
    (h : .instruction i ∈ readings (Text.pieces script)) : i.Safe := by
  obtain ⟨line, hline, hreading⟩ := List.mem_filterMap.mp h
  obtain ⟨code, hcode, hrecognize⟩ := Option.map_eq_some_iff.mp hreading
  exact safe_of_liveCode? (Text.lineFeed_not_mem_of_mem_pieces hline) hcode hrecognize

end TicketPress
