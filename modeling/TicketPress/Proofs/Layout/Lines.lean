import TicketPress.Proofs.Layout.Style
import TicketPress.Proofs.Script.Run

/-!
# The lines of a written script

A line holds the line feeds of the text its instruction carries and no others:
`count_line`. Content is escaped, so only the file name of an image can break a
line. As long as none does, the pieces of a script are its lines, and what is
recovered from the script comes from the blocks of its elements alone:
`recoverItems_script`.
-/

namespace TicketPress

/-! ## Line feeds of a line -/

/-- Whether the lexeme is a text. -/
def Lexeme.isText : Lexeme → Bool
  | .text .. => true
  | _ => false

theorem Lexeme.Plain.lineFeed_not_mem {lexeme : Lexeme} (h : lexeme.Plain) :
    '\n' ∉ lexeme.laidOut := by
  cases lexeme with
  | word spelling => exact fun hmem => absurd (h.2 '\n' hmem) (by decide)
  | text | stray => exact absurd h id
  | _ => decide

/-- Words, marks and one text laid out hold the line feeds of the text, as
often as it stands there. -/
theorem count_lineFeed_laidOut {list : List Lexeme} {body : List Char}
    (h : ∀ lexeme ∈ list, lexeme.Carries body) :
    (laidOut list).count '\n' = list.countP Lexeme.isText * body.count '\n' := by
  induction list with
  | nil => simp
  | cons lexeme list ih =>
      have hrest := ih fun other hother => h other (by simp [hother])
      rw [laidOut_cons, List.count_append, hrest, List.countP_cons]
      rcases h lexeme (by simp) with hplain | ⟨flag, rfl⟩
      · have hzero : lexeme.laidOut.count '\n' = 0 :=
          List.count_eq_zero.mpr hplain.lineFeed_not_mem
        have hkind : lexeme.isText = false := by
          cases lexeme with
          | text body flag => exact absurd hplain id
          | _ => rfl
        simp [hzero, hkind]
      · have hquoted : (Lexeme.text body flag).laidOut.count '\n' = body.count '\n' := by
          cases flag with
          | false => simp [Lexeme.laidOut, Lexeme.spelling]
          | true => simp [Lexeme.laidOut, Lexeme.spelling]
        rw [hquoted, Lexeme.isText, if_pos rfl, Nat.add_mul, Nat.one_mul, Nat.add_comm]

namespace Instruction

theorem count_remark (i : Instruction) : i.remark.count '\n' = 0 := by
  cases i with
  | setAlignment align => cases align <;> decide
  | setBold bold => cases bold <;> decide
  | setFontSize size => cases size <;> decide
  | _ => rfl

/-- The line feeds of a line are those of the text it carries. -/
theorem count_line (i : Instruction) : i.line.count '\n' = i.payload.count '\n' := by
  rw [line, List.count_append, count_remark, Nat.add_zero]
  by_cases h : i = .selectCharset
  · subst h
    decide
  · rw [statement_eq h, count_lineFeed_laidOut fun lexeme => carries_of_mem_written]
    have hnone : i.payload = [] ∨ i.written.countP Lexeme.isText = 1 := by
      cases i with
      | text literal size => cases size <;> exact Or.inr rfl
      | loadImage file => exact Or.inr rfl
      | _ => exact Or.inl rfl
    rcases hnone with hempty | hone
    · simp [hempty]
    · rw [hone, Nat.one_mul]

end Instruction

/-! ## Line feeds of a layout -/

/-- The line feeds in the name of the file an item loads. -/
def Item.lineFeeds (item : Item) : Nat :=
  (item.content.file?.elim [] String.toList).count '\n'

/-- Only an image that has a name of its own can hold line feeds. -/
theorem Item.lineFeeds_eq_zero_iff {item : Item} : item.lineFeeds = 0 ↔
    ∀ picture name, item.content = .image picture (some name) → '\n' ∉ name.toList := by
  obtain ⟨content, align, bold, size⟩ := item
  cases content with
  | text content => simp [lineFeeds, Content.file?]
  | spacing height => simp [lineFeeds, Content.file?]
  | image picture fileName =>
      have hfallback : '\n' ∉ fallbackFile.toList := by decide
      rw [lineFeeds, Content.file?, Option.elim_some, List.count_eq_zero]
      cases fileName with
      | none => simpa [loadName] using hfallback
      | some name =>
          by_cases hname : name = ""
          · subst hname
            simpa [loadName] using hfallback
          · simp [loadName, hname]

theorem Item.count_printing? {item : Item} {i : Instruction} (h : item.printing? = some i) :
    i.payload.count '\n' = item.lineFeeds := by
  obtain ⟨content, align, bold, size⟩ := item
  cases content with
  | text content =>
      obtain rfl : Instruction.text (.ofContent content) size.withText = i := by
        simpa [printing?] using h
      exact List.count_eq_zero.mpr (lineFeed_not_mem_escaped content.toList)
  | image picture fileName =>
      obtain rfl : Instruction.loadImage (loadName fileName).toList = i := by
        simpa [printing?] using h
      rfl
  | spacing height =>
      rcases spacingInstruction?_cases h with ⟨dots, rfl⟩ | ⟨dots, rfl⟩ <;> rfl

/-- The lines of an item's block hold the line feeds of the item. -/
theorem Item.count_instructions (item : Item) (printer : Printer) :
    ((item.instructions printer).flatMap Instruction.line).count '\n' = item.lineFeeds := by
  have hchanges : ((item.changes printer).flatMap Instruction.line).count '\n' = 0 := by
    rw [List.count_eq_zero]
    intro hmem
    obtain ⟨i, hi, hline⟩ := List.mem_flatMap.mp hmem
    have hcount := i.count_line
    rw [(plain_of_mem_changes hi).2.2.1, List.count_nil] at hcount
    exact List.count_eq_zero.mp hcount hline
  rw [instructions_eq, List.flatMap_append, List.count_append, hchanges, Nat.zero_add]
  cases hprint : item.printing? with
  | some i =>
      rw [Option.toList_some, List.flatMap_singleton, i.count_line, count_printing? hprint]
  | none =>
      obtain ⟨content, align, bold, size⟩ := item
      cases content with
      | spacing height => rfl
      | _ => simp [printing?] at hprint

/-- The line feeds in the names of the files that items load. -/
def lineFeedsOf : List Item → Nat
  | [] => 0
  | item :: rest => item.lineFeeds + lineFeedsOf rest

theorem lineFeedsOf_eq_zero_iff {list : List Item} :
    lineFeedsOf list = 0 ↔ ∀ item ∈ list, item.lineFeeds = 0 := by
  induction list with
  | nil => simp [lineFeedsOf]
  | cons item rest ih => simp [lineFeedsOf, ih]

theorem count_blocks (printer : Printer) (list : List Item) :
    ((blocks printer list).flatten.flatMap Instruction.line).count '\n' =
      lineFeedsOf list := by
  induction list generalizing printer with
  | nil => rfl
  | cons item rest ih =>
      rw [blocks, List.flatten_cons, List.flatMap_append, List.count_append,
        item.count_instructions, ih, lineFeedsOf]

/-! ## The lines of a script -/

theorem map_text_elementLines (printer : Printer) (layout : List Element) :
    (elementLines printer layout).map ScriptLine.text =
      (blocks printer (items layout)).flatten.map Instruction.line := by
  induction layout generalizing printer with
  | nil => rfl
  | cons element layout ih =>
      have hrest := ih (printer.afterAll (element.toItem.instructions printer))
      simp only [elementLines, items, List.map_cons, blocks, List.zipWith_cons_cons,
        List.flatten_cons, List.map_append, blockLines, List.map_map] at hrest ⊢
      rw [hrest]
      rfl

/-- The texts of the lines of a script: the frame, and between it the lines of
the blocks. -/
theorem map_text_script (layout : List Element) :
    (script layout).map ScriptLine.text = preamble.map ScriptLine.text ++
      ((blocks .unplaced (items layout)).flatten.map Instruction.line ++
        trailer.map ScriptLine.text) := by
  rw [script, List.map_append, List.map_append, map_text_elementLines, List.append_assoc]

/-- The instructions of the frame. -/
def frameInstructions : List Instruction :=
  [.selectCharset, .reset, .pageMode, .feedAndCut trailerDots]

/-- A line of a script is empty, or that of an instruction of the frame or of a
block. -/
theorem cases_of_mem_script {layout : List Element} {line : List Char}
    (h : line ∈ (script layout).map ScriptLine.text) :
    line = [] ∨ ∃ i : Instruction, line = i.line ∧
      (i ∈ frameInstructions ∨ i ∈ (blocks .unplaced (items layout)).flatten) := by
  rw [map_text_script, List.mem_append, List.mem_append] at h
  rcases h with hpreamble | hblock | htrailer
  · simp only [preamble, frameLine, List.map_cons, List.map_nil, List.mem_cons,
      List.not_mem_nil, or_false] at hpreamble
    rcases hpreamble with rfl | rfl | rfl | rfl | rfl
    · exact Or.inr ⟨_, rfl, Or.inl (by simp [frameInstructions])⟩
    · exact Or.inl rfl
    · exact Or.inr ⟨_, rfl, Or.inl (by simp [frameInstructions])⟩
    · exact Or.inr ⟨_, rfl, Or.inl (by simp [frameInstructions])⟩
    · exact Or.inl rfl
  · obtain ⟨i, hi, rfl⟩ := List.mem_map.mp hblock
    exact Or.inr ⟨i, rfl, Or.inr hi⟩
  · simp only [trailer, frameLine, List.map_cons, List.map_nil, List.mem_cons,
      List.not_mem_nil, or_false] at htrailer
    rcases htrailer with rfl | rfl
    · exact Or.inl rfl
    · exact Or.inr ⟨_, rfl, Or.inl (by simp [frameInstructions])⟩

/-- The lines of a script hold the line feeds of its items. -/
theorem count_script (layout : List Element) :
    ((script layout).map ScriptLine.text).flatten.count '\n' = lineFeedsOf (items layout) := by
  have hpreamble : (preamble.map ScriptLine.text).flatten.count '\n' = 0 := by
    simp [preamble, frameLine, Instruction.count_line, Instruction.payload]
  have htrailer : (trailer.map ScriptLine.text).flatten.count '\n' = 0 := by
    simp [trailer, frameLine, Instruction.count_line, Instruction.payload]
  have hblocks := count_blocks .unplaced (items layout)
  rw [List.flatMap_def] at hblocks
  rw [map_text_script, List.flatten_append, List.flatten_append, List.count_append,
    List.count_append, hpreamble, htrailer, hblocks, Nat.zero_add, Nat.add_zero]

/-- A layout whose images have names without line feeds. -/
def NamesStayOnLine (layout : List Element) : Prop :=
  ∀ element ∈ layout, ∀ picture name,
    element.content = .image picture (some name) → '\n' ∉ name.toList

theorem namesStayOnLine_iff {layout : List Element} :
    NamesStayOnLine layout ↔ ∀ item ∈ items layout, item.lineFeeds = 0 := by
  simp only [NamesStayOnLine, items, List.forall_mem_map, Item.lineFeeds_eq_zero_iff]

/-- The lines of a script are whole exactly if no item holds a line feed. -/
theorem forall_mem_script_iff {layout : List Element} :
    (∀ line ∈ script layout, '\n' ∉ line.text) ↔ ∀ item ∈ items layout, item.lineFeeds = 0 := by
  have hzero : (∀ line ∈ script layout, '\n' ∉ line.text) ↔
      ((script layout).map ScriptLine.text).flatten.count '\n' = 0 := by
    rw [List.count_eq_zero, List.mem_flatten]
    simp
  rw [hzero, count_script, lineFeedsOf_eq_zero_iff]

/-- Without line feeds in the names of its files a script has its lines as
pieces. -/
theorem pieces_scriptText {layout : List Element} (h : ∀ item ∈ items layout, item.lineFeeds = 0) :
    Text.pieces (scriptText (script layout)) = (script layout).map ScriptLine.text := by
  apply Text.pieces_intercalate
  · simp [script, preamble]
  · simpa using forall_mem_script_iff.mpr h

/-! ## Recovering from a written script -/

theorem readings_preamble :
    readings (preamble.map ScriptLine.text) = [.instruction .reset, .instruction .pageMode] := by
  have hcharset : liveCode? Instruction.selectCharset.line = none := by decide
  have hreset := Instruction.recognize_line (i := .reset) (by simp)
    (Instruction.safe_of_payload_eq_nil rfl (by simp))
  have hpage := Instruction.recognize_line (i := .pageMode) (by simp)
    (Instruction.safe_of_payload_eq_nil rfl (by simp))
  simp only [preamble, frameLine, List.map_cons, List.map_nil, readings_cons, readings_nil,
    hcharset, hreset, hpage]
  rfl

theorem readings_trailer :
    readings (trailer.map ScriptLine.text) = [.instruction (.feedAndCut trailerDots)] := by
  have hcut := Instruction.recognize_line (i := .feedAndCut trailerDots) (by simp)
    (Instruction.safe_of_payload_eq_nil rfl (by simp))
  simp only [trailer, frameLine, List.map_cons, List.map_nil, readings_cons, readings_nil, hcut]
  rfl

/-- What is recovered from a written script comes from the blocks of its
elements. -/
theorem recoverItems_script {layout : List Element}
    (h : ∀ item ∈ items layout, item.lineFeeds = 0) :
    recoverItems (scriptText (script layout)) =
      Printer.initial.gather
        (readings ((blocks .unplaced (items layout)).flatten.map Instruction.line)) := by
  rw [recoverItems_eq, pieces_scriptText h, map_text_script, readings_append, readings_append,
    readings_preamble, readings_trailer, Printer.gather_append, Printer.gather_append]
  have hafter : Printer.initial.afterReadings
      [.instruction .reset, .instruction .pageMode] = .initial := rfl
  have hframe : Printer.initial.gather [.instruction .reset, .instruction .pageMode] = [] := rfl
  have hcut : ∀ printer : Printer,
      printer.gather [.instruction (.feedAndCut trailerDots)] = [] := by
    intro printer
    rfl
  rw [hafter, hframe, hcut, List.nil_append, List.append_nil]

end TicketPress
