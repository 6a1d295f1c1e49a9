import TicketPress.Proofs.Layout.Lines

/-!
# A reader follows a writer

The writer of a script starts without a known alignment, the reader at the
first state of the printer, so the two are not the same. The reader agrees with
the writer on everything the writer knows, except that it may lag behind in
size when a large text got lost on its way. `Follows` is kept by every
instruction that both see, and by a text that only the writer sees.
-/

namespace TicketPress

/-! ## The relation -/

/-- A reader agrees with a writer on bold and on the alignment the writer
knows, and is large only if the writer is. -/
structure Printer.Follows (reader writer : Printer) : Prop where
  bold : reader.bold = writer.bold
  align : ∀ align, writer.align = some align → reader.align = some align
  size : reader.size = .large → writer.size = .large

namespace Printer

variable {reader writer : Printer}

theorem follows_unplaced : initial.Follows unplaced :=
  ⟨rfl, by simp [unplaced], by simp [initial]⟩

/-- An instruction that both see keeps them together. -/
theorem Follows.after (h : reader.Follows writer) (i : Instruction) :
    (reader.after i).Follows (writer.after i) := by
  obtain ⟨hbold, halign, hsize⟩ := h
  cases i with
  | reset => exact ⟨rfl, fun _ hknown => hknown, id⟩
  | setAlignment align => exact ⟨hbold, fun _ hknown => hknown, hsize⟩
  | setBold bold => exact ⟨rfl, halign, hsize⟩
  | setFontSize size => exact ⟨hbold, halign, id⟩
  | text literal size =>
      cases size with
      | none => exact ⟨hbold, halign, hsize⟩
      | some size => exact ⟨hbold, halign, id⟩
  | _ => exact ⟨hbold, halign, hsize⟩

theorem Follows.afterAll (h : reader.Follows writer) (list : List Instruction) :
    (reader.afterAll list).Follows (writer.afterAll list) := by
  induction list generalizing reader writer with
  | nil => exact h
  | cons i list ih =>
      rw [afterAll_cons, afterAll_cons]
      exact ih (h.after i)

/-- A text that the reader misses can only make the writer large. -/
theorem Follows.after_withText (h : reader.Follows writer) (literal : Literal)
    (size : FontSize) : reader.Follows (writer.after (.text literal size.withText)) := by
  cases size with
  | normal => exact h
  | large => exact ⟨h.bold, h.align, fun _ => rfl⟩

/-- Sizes that agree go on agreeing. -/
theorem after_size_congr (h : reader.size = writer.size) (i : Instruction) :
    (reader.after i).size = (writer.after i).size := by
  cases i with
  | text literal size =>
      cases size with
      | none => exact h
      | some size => rfl
  | reset | setFontSize => rfl
  | _ => exact h

theorem afterAll_size_congr (h : reader.size = writer.size) (list : List Instruction) :
    (reader.afterAll list).size = (writer.afterAll list).size := by
  induction list generalizing reader writer with
  | nil => exact h
  | cons i list ih =>
      rw [afterAll_cons, afterAll_cons]
      exact ih (after_size_congr h i)

/-! ## The block of an item -/

/-- Before a text of normal size the writer is brought back to normal. -/
theorem afterAll_changes_size {item : Item} (htext : item.isText = true)
    (hsize : item.size = .normal) (printer : Printer) :
    (printer.afterAll (item.changes printer)).size = .normal := by
  rw [Item.changes, if_pos htext, afterAll_append, afterAll_aligning?, Item.styling, hsize]
  obtain ⟨align, bold, size⟩ := printer
  cases size <;> cases bold <;> cases item.bold <;> rfl

end Printer

/-! ## Reading the block of an item -/

/-- Safe instructions are read from their lines one by one. -/
theorem readings_map_line {list : List Instruction}
    (h : ∀ i ∈ list, i ≠ .selectCharset ∧ i.Safe) :
    readings (list.map Instruction.line) = list.map .instruction := by
  induction list with
  | nil => rfl
  | cons i list ih =>
      obtain ⟨hne, hsafe⟩ := h i (by simp)
      rw [List.map_cons, readings_cons, Instruction.recognize_line hne hsafe,
        ih fun j hj => h j (by simp [hj])]
      rfl

theorem readings_changes (item : Item) (printer : Printer) :
    readings ((item.changes printer).map Instruction.line) =
      (item.changes printer).map .instruction := by
  apply readings_map_line
  intro i hi
  obtain ⟨hne, -, -, hsafe⟩ := Item.plain_of_mem_changes hi
  exact ⟨hne, hsafe⟩

/-- Of the block of an item only the line that prints can give an item. -/
theorem gather_block (reader : Printer) (item : Item) (printer : Printer) :
    reader.gather (readings ((item.instructions printer).map Instruction.line)) =
      (reader.afterAll (item.changes printer)).gather
        (readings (item.printing?.toList.map Instruction.line)) := by
  have hchanges : reader.gather ((item.changes printer).map .instruction) = [] :=
    reader.gather_of_content?_eq_none fun i hi => (Item.plain_of_mem_changes hi).2.1
  rw [Item.instructions_eq, List.map_append, readings_append, readings_changes,
    Printer.gather_append, hchanges, Printer.afterReadings_instructions]
  rfl

theorem afterReadings_block (reader : Printer) (item : Item) (printer : Printer) :
    reader.afterReadings (readings ((item.instructions printer).map Instruction.line)) =
      (reader.afterAll (item.changes printer)).afterReadings
        (readings (item.printing?.toList.map Instruction.line)) := by
  rw [Item.instructions_eq, List.map_append, readings_append, readings_changes,
    Printer.afterReadings_append, Printer.afterReadings_instructions]

/-! ## Heights -/

/-- A height is recovered from the instruction it is written as, and a spacing
of no height is not written. -/
theorem content?_spacingInstruction? (height : Int32) :
    (spacingInstruction? height).bind Instruction.content? =
      if height = 0 then none else some (.spacing height) := by
  have hmin : -2 ^ 31 ≤ height.toInt := height.le_toInt
  have hmax : height.toInt < 2 ^ 31 := height.toInt_lt
  have hdots : (UInt32.ofNat height.toInt.natAbs).toNat = height.toInt.natAbs := by
    apply UInt32.toNat_ofNat_of_lt'
    simp only [UInt32.size]
    omega
  simp only [spacingInstruction?, Int32.lt_iff_toInt_lt, Int32.toInt_zero]
  by_cases hpos : 0 < height.toInt
  · have hne : height ≠ 0 := by
      rintro rfl
      simp at hpos
    have hfeed : feedHeight (UInt32.ofNat height.toInt.natAbs) = height := by
      have hmin : min (height.toInt.natAbs : Int) Int32.maxValue.toInt = height.toInt := by
        rw [Int32.toInt_maxValue]
        omega
      rw [feedHeight, hdots, hmin, Int32.ofInt_toInt]
    rw [if_pos hpos, if_neg hne, Option.bind_some, Instruction.content?, hfeed]
  · by_cases hneg : height.toInt < 0
    · have hne : height ≠ 0 := by
        rintro rfl
        simp at hneg
      have hretract : retractHeight (UInt32.ofNat height.toInt.natAbs) = height := by
        have hmax : max (-(height.toInt.natAbs : Int)) Int32.minValue.toInt = height.toInt := by
          rw [Int32.toInt_minValue]
          omega
        rw [retractHeight, hdots, hmax, Int32.ofInt_toInt]
      rw [if_neg hpos, if_pos hneg, if_neg hne, Option.bind_some, Instruction.content?, hretract]
    · have hzero : height = 0 := by
        apply Int32.toInt.inj
        rw [Int32.toInt_zero]
        omega
      rw [if_neg hpos, if_neg hneg, if_pos hzero, Option.bind_none]

theorem spacingInstruction?_eq_none_iff {height : Int32} :
    spacingInstruction? height = none ↔ height = 0 := by
  constructor
  · intro hnone
    have hcontent := content?_spacingInstruction? height
    rw [hnone, Option.bind_none] at hcontent
    by_cases hzero : height = 0
    · exact hzero
    · rw [if_neg hzero] at hcontent
      exact absurd hcontent (by simp)
  · rintro rfl
    decide

/-- Only a spacing of no height leaves no line. -/
theorem Item.printing?_eq_none_iff {item : Item} :
    item.printing? = none ↔ item.content = .spacing 0 := by
  obtain ⟨content, align, bold, size⟩ := item
  cases content with
  | text content => simp [printing?]
  | image picture fileName => simp [printing?]
  | spacing height => simpa [printing?] using spacingInstruction?_eq_none_iff

end TicketPress
