import TicketPress.Proofs.Script.Recognition
import TicketPress.Script.Basic

/-!
# The style a writer carries along

The instructions of an item are changes of style and then, unless it is a
spacing of no height, one instruction that prints. After an item the writer's
printer depends on the items so far only by the last alignment and by the
nearest text: `afterAll_instructions`.
-/

namespace TicketPress

/-! ## The block of an item -/

/-- Whether the item is a text. -/
def Item.isText (item : Item) : Bool := item.content.kind == .text

/-- The changes of style before an item is printed. -/
def Item.changes (item : Item) (printer : Printer) : List Instruction :=
  (printer.aligning? item.align item.content.isOverlay).toList ++
    if item.isText then item.styling printer else []

/-- The instruction that prints an item. -/
def Item.printing? (item : Item) : Option Instruction :=
  match item.content with
  | .spacing height => spacingInstruction? height
  | .image _ fileName => some (.loadImage (loadName fileName).toList)
  | .text content => some (.text (.ofContent content) item.size.withText)

theorem Item.instructions_eq (item : Item) (printer : Printer) :
    item.instructions printer = item.changes printer ++ item.printing?.toList := by
  obtain ⟨content, align, bold, size⟩ := item
  cases content with
  | text content => simp [instructions, changes, printing?, isText, Content.kind]
  | image picture fileName => simp [instructions, changes, printing?, isText, Content.kind]
  | spacing height => simp [instructions, changes, printing?, isText, Content.kind]

/-- A change of style is one of three. -/
theorem Item.of_mem_changes {item : Item} {printer : Printer} {i : Instruction}
    (h : i ∈ item.changes printer) :
    (∃ align, i = .setAlignment align) ∨ (∃ bold, i = .setBold bold) ∨
      i = .setFontSize .normal := by
  rcases List.mem_append.mp h with halign | hstyle
  · left
    have hsome := Option.mem_toList.mp halign
    simp only [Printer.aligning?, Option.ite_none_right_eq_some, Option.some.injEq] at hsome
    exact ⟨item.align, hsome.2.symm⟩
  · right
    by_cases htext : item.isText = true
    · rw [if_pos htext] at hstyle
      rcases List.mem_append.mp hstyle with hsize | hbold
      · right
        have hsome := Option.mem_toList.mp hsize
        simp only [Printer.resizing?, Option.ite_none_right_eq_some, Option.some.injEq] at hsome
        exact hsome.2.symm
      · left
        have hsome := Option.mem_toList.mp hbold
        simp only [Printer.emboldening?, Option.ite_none_right_eq_some,
          Option.some.injEq] at hsome
        exact ⟨item.bold, hsome.2.symm⟩
    · rw [if_neg htext] at hstyle
      exact absurd hstyle (by simp)

/-- A change of style prints nothing, carries no text, and is read as itself. -/
theorem Item.plain_of_mem_changes {item : Item} {printer : Printer} {i : Instruction}
    (h : i ∈ item.changes printer) :
    i ≠ .selectCharset ∧ i.content? = none ∧ i.payload = [] ∧ i.Safe := by
  rcases of_mem_changes h with ⟨align, rfl⟩ | ⟨bold, rfl⟩ | rfl
  all_goals exact ⟨by simp, rfl, rfl, Instruction.safe_of_payload_eq_nil rfl (by simp)⟩

theorem spacingInstruction?_cases {height : Int32} {i : Instruction}
    (h : spacingInstruction? height = some i) :
    (∃ dots, i = .feed dots) ∨ ∃ dots, i = .retract dots := by
  simp only [spacingInstruction?] at h
  split at h
  · exact Or.inl ⟨_, (Option.some.inj h).symm⟩
  · split at h
    · exact Or.inr ⟨_, (Option.some.inj h).symm⟩
    · exact absurd h (by simp)

/-- An instruction that prints an item is no declaration of the charset. -/
theorem Item.printing?_ne_selectCharset {item : Item} {i : Instruction}
    (h : item.printing? = some i) : i ≠ .selectCharset := by
  rintro rfl
  unfold printing? at h
  split at h
  · rcases spacingInstruction?_cases h with ⟨dots, hi⟩ | ⟨dots, hi⟩ <;> simp at hi
  · simp at h
  · simp at h

/-! ## The nearest text -/

/-- The last text of a list of items. -/
def nearestText? (before : List Item) : Option Item := before.reverse.find? Item.isText

/-- Whether bold is on after items: as the nearest text has it, off before the
first one. -/
def carriedBold (before : List Item) : Bool := (nearestText? before).elim false Item.bold

/-- The size after items: that of the nearest text, normal before the first. -/
def carriedSize (before : List Item) : FontSize := (nearestText? before).elim .normal Item.size

theorem nearestText?_concat (before : List Item) (item : Item) :
    nearestText? (before ++ [item]) =
      if item.isText then some item else nearestText? before := by
  rw [nearestText?, List.reverse_append, List.reverse_singleton, List.singleton_append,
    List.find?_cons]
  cases item.isText with
  | true => rfl
  | false => rfl

theorem carriedBold_concat (before : List Item) (item : Item) :
    carriedBold (before ++ [item]) = if item.isText then item.bold else carriedBold before := by
  rw [carriedBold, nearestText?_concat]
  cases item.isText with
  | true => rfl
  | false => rfl

theorem carriedSize_concat (before : List Item) (item : Item) :
    carriedSize (before ++ [item]) = if item.isText then item.size else carriedSize before := by
  rw [carriedSize, nearestText?_concat]
  cases item.isText with
  | true => rfl
  | false => rfl

/-- The printer of a writer after items. -/
def Printer.carried (before : List Item) : Printer where
  align := before.getLast?.map Item.align
  bold := carriedBold before
  size := carriedSize before

@[simp] theorem Printer.carried_nil : Printer.carried [] = .unplaced := rfl

@[simp] theorem Printer.carried_align_concat (before : List Item) (item : Item) :
    (carried (before ++ [item])).align = some item.align := by
  simp [carried]

/-! ## The writer's step -/

theorem Printer.afterAll_aligning? (printer : Printer) (align : Alignment) (always : Bool) :
    printer.afterAll (printer.aligning? align always).toList =
      { printer with align := some align } := by
  unfold aligning?
  split
  · rfl
  · rename_i hkeep
    have halign : printer.align = some align := by
      by_cases hsame : printer.align = some align
      · exact hsame
      · exact absurd (Or.inr hsame) hkeep
    rw [Option.toList_none, afterAll_nil, ← halign]

/-- The changes of style and the size that comes with the text leave the style
of the text. -/
theorem Printer.afterAll_styling (printer : Printer) (bold : Bool) (size : FontSize)
    (literal : Literal) :
    (printer.afterAll ((printer.resizing? size).toList ++ (printer.emboldening? bold).toList)).after
        (.text literal size.withText) = { printer with bold, size } := by
  obtain ⟨align, bold', size'⟩ := printer
  cases bold <;> cases bold' <;> cases size <;> cases size' <;> rfl

/-- After the block of an item the writer carries what the items so far leave. -/
theorem Printer.afterAll_instructions (before : List Item) (item : Item) :
    (carried before).afterAll (item.instructions (carried before)) =
      carried (before ++ [item]) := by
  have hcarried : carried (before ++ [item]) = ⟨some item.align,
      if item.isText then item.bold else carriedBold before,
      if item.isText then item.size else carriedSize before⟩ := by
    rw [carried, carriedBold_concat, carriedSize_concat]
    simp
  rw [hcarried, Item.instructions, afterAll_append, afterAll_aligning?]
  obtain ⟨content, align, bold, size⟩ := item
  cases content with
  | text content =>
      have hstyle := afterAll_styling { carried before with align := some align } bold size
        (.ofContent content)
      rw [afterAll_append]
      exact hstyle
  | image picture fileName => rfl
  | spacing height =>
      have hsame : ∀ printer : Printer,
          printer.afterAll (spacingInstruction? height).toList = printer := by
        intro printer
        cases hspacing : spacingInstruction? height with
        | none => rfl
        | some i =>
            rcases spacingInstruction?_cases hspacing with ⟨dots, rfl⟩ | ⟨dots, rfl⟩ <;> rfl
      exact hsame _

/-- The blocks of a layout go on with what the items so far leave. -/
theorem blocks_carried_cons (before : List Item) (item : Item) (rest : List Item) :
    blocks (.carried before) (item :: rest) =
      item.instructions (.carried before) :: blocks (.carried (before ++ [item])) rest := by
  rw [blocks, Printer.afterAll_instructions]

end TicketPress
