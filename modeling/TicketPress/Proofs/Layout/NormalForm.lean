import TicketPress.Proofs.Layout.Following

/-!
# The normal form of a layout

A script does not hold all of a layout. A spacing of no height leaves no line,
of an image only the file is written, and the style of images and spacings
comes from the text before them. What is left is the normal form, and recovery
gives it back if every text and every file name gets through its line. The
converse holds as well, because whatever is recovered from any script can be
written again.
-/

namespace TicketPress

/-! ## Definitions -/

/-- Content whose line gives it back: the body of its text or the name of its
file gets through a script. -/
def Content.Representable : Content → Prop
  | .text content => TicketPress.Representable content
  | .image _ fileName => ScriptSafe (loadName fileName).toList
  | .spacing _ => True

instance : (content : Content) → Decidable content.Representable
  | .text content => inferInstanceAs (Decidable (TicketPress.Representable content))
  | .image _ fileName => inferInstanceAs (Decidable (ScriptSafe (loadName fileName).toList))
  | .spacing _ => inferInstanceAs (Decidable True)

/-- An item whose line gives its content back. -/
def Item.Representable (item : Item) : Prop := item.content.Representable

instance (item : Item) : Decidable item.Representable :=
  inferInstanceAs (Decidable item.content.Representable)

/-- What a script keeps of an item after others. -/
def Item.normal? (before : List Item) (item : Item) : Option Item :=
  match item.content with
  | .text _ => some item
  | .image _ fileName =>
    some {
      content := .image "" (some (loadName fileName))
      align := item.align
      bold := carriedBold before
      size := carriedSize before }
  | .spacing height =>
    if height = 0 then none
    else some { item with bold := carriedBold before, size := carriedSize before }

/-- What a script keeps of items after others. -/
def normalFrom : (before rest : List Item) → List Item
  | _, [] => []
  | before, item :: rest => (item.normal? before).toList ++ normalFrom (before ++ [item]) rest

/-- What a script keeps of items. -/
def normalForm (list : List Item) : List Item := normalFrom [] list

/-! ## What is written comes back -/

theorem loadName_ne_empty (fileName : Option String) : loadName fileName ≠ "" := by
  cases fileName with
  | none => decide
  | some name =>
      rw [loadName]
      split
      · decide
      · assumption

/-- A name that is not empty loads the file of this name. -/
theorem loadName_some {name : String} (h : name ≠ "") : loadName (some name) = name := by
  rw [loadName, if_neg h]

theorem Item.Representable.safe {item : Item} (h : item.Representable) {i : Instruction}
    (hprint : item.printing? = some i) : i ≠ .selectCharset ∧ i.Safe := by
  refine ⟨printing?_ne_selectCharset hprint, ?_⟩
  obtain ⟨content, align, bold, size⟩ := item
  cases content with
  | text content =>
      obtain rfl : Instruction.text (.ofContent content) size.withText = i := by
        simpa [printing?] using hprint
      exact ⟨TicketPress.Representable.safe h, by simp⟩
  | image picture fileName =>
      obtain rfl : Instruction.loadImage (loadName fileName).toList = i := by
        simpa [printing?] using hprint
      refine ⟨h, ?_⟩
      rintro file hfile
      obtain rfl := Instruction.loadImage.inj hfile
      simpa using loadName_ne_empty fileName
  | spacing height =>
      rcases spacingInstruction?_cases hprint with ⟨dots, rfl⟩ | ⟨dots, rfl⟩ <;>
        exact Instruction.safe_of_payload_eq_nil rfl (by simp)

theorem Item.Representable.lineFeeds_eq_zero {item : Item} (h : item.Representable) :
    item.lineFeeds = 0 := by
  obtain ⟨content, align, bold, size⟩ := item
  cases content with
  | image picture fileName => exact List.count_eq_zero.mpr (ScriptSafe.oneLine h)
  | _ => rfl

/-- On a printer with the style of a representable item its instruction gives
what a script keeps of the item. -/
theorem Item.Representable.item?_eq {item : Item} (h : item.Representable) {i : Instruction}
    (hprint : item.printing? = some i) {before : List Item} {printer : Printer}
    (halign : printer.align = some item.align)
    (hbold : printer.bold = carriedBold (before ++ [item]))
    (hsize : printer.size = carriedSize (before ++ [item])) :
    printer.item? i = item.normal? before := by
  have hplaced : printer.alignment = item.align := by rw [Printer.alignment, halign]; rfl
  rw [carriedBold_concat] at hbold
  rw [carriedSize_concat] at hsize
  rw [Printer.item?, hplaced, hbold, hsize]
  obtain ⟨content, align, bold, size⟩ := item
  cases content with
  | text content =>
      obtain rfl : Instruction.text (.ofContent content) size.withText = i := by
        simpa [printing?] using hprint
      rw [Instruction.content?, content_ofContent h]
      rfl
  | image picture fileName =>
      obtain rfl : Instruction.loadImage (loadName fileName).toList = i := by
        simpa [printing?] using hprint
      rw [Instruction.content?, String.ofList_toList]
      rfl
  | spacing height =>
      have hcontent := content?_spacingInstruction? height
      have hspacing : spacingInstruction? height = some i := hprint
      rw [hspacing, Option.bind_some] at hcontent
      rw [hcontent, normal?]
      by_cases hzero : height = 0
      · simp [hzero]
      · simp [hzero, isText, Content.kind]

/-- All instructions of a representable item are safe. -/
theorem Item.Representable.of_mem_instructions {item : Item} (h : item.Representable)
    {printer : Printer} {i : Instruction} (hi : i ∈ item.instructions printer) :
    i ≠ .selectCharset ∧ i.Safe := by
  rw [instructions_eq, List.mem_append, Option.mem_toList] at hi
  rcases hi with hchange | hprint
  · obtain ⟨hne, -, -, hsafe⟩ := plain_of_mem_changes hchange
    exact ⟨hne, hsafe⟩
  · exact h.safe hprint

/-- The lines of a representable item are read as its instructions. -/
theorem Item.Representable.readings_instructions {item : Item} (h : item.Representable)
    (printer : Printer) :
    readings ((item.instructions printer).map Instruction.line) =
      (item.instructions printer).map .instruction :=
  readings_map_line fun _ => h.of_mem_instructions

/-- A reader that follows a writer in full reads the block of a representable
item as what a script keeps of it. -/
theorem gather_block_of_representable {item : Item} (h : item.Representable)
    {before : List Item} {reader : Printer} (hfollows : reader.Follows (.carried before))
    (hsize : reader.size = (Printer.carried before).size) :
    reader.gather (readings ((item.instructions (.carried before)).map Instruction.line)) =
      (item.normal? before).toList := by
  rw [gather_block]
  cases hprint : item.printing? with
  | none =>
      have hnone : item.normal? before = none := by
        rw [Item.normal?, Item.printing?_eq_none_iff.mp hprint]
        rfl
      rw [hnone]
      rfl
  | some i =>
      have hlines : readings ([i].map Instruction.line) = [i].map .instruction :=
        readings_map_line (by simpa using h.safe hprint)
      have hafter := Printer.afterAll_instructions before item
      rw [Item.instructions_eq, hprint, Printer.afterAll_append] at hafter
      have hfollowed := hfollows.afterAll (item.changes (.carried before) ++ [i])
      have hsized := Printer.afterAll_size_congr hsize (item.changes (.carried before) ++ [i])
      rw [Printer.afterAll_append, Printer.afterAll_append, ← Option.toList_some,
        hafter] at hfollowed hsized
      have hitem := h.item?_eq hprint
        (hfollowed.align item.align (Printer.carried_align_concat before item))
        hfollowed.bold hsized
      rw [Option.toList_some, hlines, ← hitem]
      exact List.append_nil _

/-- The blocks of representable items are read as what a script keeps of the
items. The induction is on the items that are left; the reader follows the
writer from one to the next. -/
theorem gather_blocks {before rest : List Item} (h : ∀ item ∈ rest, item.Representable)
    {reader : Printer} (hfollows : reader.Follows (.carried before))
    (hsize : reader.size = (Printer.carried before).size) :
    reader.gather (readings ((blocks (.carried before) rest).flatten.map Instruction.line)) =
      normalFrom before rest := by
  induction rest generalizing before reader with
  | nil => rfl
  | cons item rest ih =>
      have hitem : item.Representable := h item (by simp)
      have hfollowed := hfollows.afterAll (item.instructions (.carried before))
      have hsized := Printer.afterAll_size_congr hsize (item.instructions (.carried before))
      rw [Printer.afterAll_instructions] at hfollowed hsized
      rw [blocks_carried_cons, List.flatten_cons, List.map_append, readings_append,
        Printer.gather_append, gather_block_of_representable hitem hfollows hsize,
        hitem.readings_instructions, Printer.afterReadings_instructions,
        ih (fun other hother => h other (by simp [hother])) hfollowed hsized]
      rfl

/-- A layout of representable items comes back in its normal form. -/
theorem recoverItems_of_representable {layout : List Element}
    (h : ∀ item ∈ items layout, item.Representable) :
    recoverItems (scriptText (script layout)) = normalForm (items layout) := by
  rw [recoverItems_script fun item hitem => (h item hitem).lineFeeds_eq_zero]
  rw [← Printer.carried_nil]
  exact gather_blocks h Printer.follows_unplaced rfl

/-! ## What comes back can be written -/

theorem exists_of_mem_gather {printer : Printer} {list : List Recognition} {item : Item}
    (h : item ∈ printer.gather list) :
    ∃ i, .instruction i ∈ list ∧ ∃ style : Printer, style.item? i = some item := by
  induction list generalizing printer with
  | nil => simp at h
  | cons r list ih =>
      rw [Printer.gather, List.mem_append, Option.mem_toList] at h
      rcases h with hfirst | hrest
      · cases r with
        | instruction i => exact ⟨i, by simp, _, hfirst⟩
        | _ => simp [Recognition.item?] at hfirst
      · obtain ⟨i, hi, hstyle⟩ := ih hrest
        exact ⟨i, by simp [hi], hstyle⟩

/-- An item of a safe instruction is representable. -/
theorem representable_of_safe {i : Instruction} (h : i.Safe) {style : Printer} {item : Item}
    (hitem : style.item? i = some item) : item.Representable := by
  obtain ⟨content, hcontent, rfl⟩ := Option.map_eq_some_iff.mp hitem
  cases i with
  | text literal size =>
      obtain rfl := Option.some.inj hcontent
      exact representable_content h.payload
  | loadImage file =>
      obtain rfl := Option.some.inj hcontent
      have hname : String.ofList file ≠ "" := by
        simpa using h.named file rfl
      show ScriptSafe (loadName (some (String.ofList file))).toList
      rw [loadName_some hname, String.toList_ofList]
      exact h.payload
  | feed dots | retract dots =>
      obtain rfl := Option.some.inj hcontent
      trivial
  | _ => simp [Instruction.content?] at hcontent

/-- Whatever script it comes from, a recovered item is representable. -/
theorem representable_of_mem_recoverItems {text : List Char} {item : Item}
    (h : item ∈ recoverItems text) : item.Representable := by
  rw [recoverItems_eq] at h
  obtain ⟨i, hi, style, hstyle⟩ := exists_of_mem_gather h
  exact representable_of_safe (safe_of_mem_readings hi) hstyle

/-- An item is representable if what a script keeps of it is. -/
theorem representable_of_normal? {before : List Item} {item kept : Item}
    (h : item.normal? before = some kept) (hkept : kept.Representable) : item.Representable := by
  obtain ⟨content, align, bold, size⟩ := item
  cases content with
  | text content =>
      obtain rfl := Option.some.inj h
      exact hkept
  | image picture fileName =>
      obtain rfl := Option.some.inj h
      have hsafe : ScriptSafe (loadName (some (loadName fileName))).toList := hkept
      rw [loadName_some (loadName_ne_empty fileName)] at hsafe
      exact hsafe
  | spacing height => trivial

theorem representable_of_normalFrom {before rest : List Item}
    (h : ∀ kept ∈ normalFrom before rest, kept.Representable) :
    ∀ item ∈ rest, item.Representable := by
  induction rest generalizing before with
  | nil => simp
  | cons item rest ih =>
      simp only [normalFrom, List.mem_append, Option.mem_toList] at h
      intro other hother
      rcases List.mem_cons.mp hother with rfl | hrest
      · cases hnormal : other.normal? before with
        | none =>
            unfold Item.normal? at hnormal
            split at hnormal
            · simp at hnormal
            · simp at hnormal
            · rename_i hcontent
              rw [Item.Representable, hcontent]
              trivial
        | some kept =>
            exact representable_of_normal? hnormal (h kept (Or.inl hnormal))
      · exact ih (fun kept hkept => h kept (Or.inr hkept)) other hrest

/-! ## The round trip -/

/-- A layout comes back in its normal form exactly if all its items are
representable. -/
theorem recoverItems_script_eq_normalForm_iff (layout : List Element) :
    recoverItems (scriptText (script layout)) = normalForm (items layout) ↔
      ∀ item ∈ items layout, item.Representable := by
  constructor
  · intro hrecovered
    have hnormal : ∀ kept ∈ normalFrom [] (items layout), kept.Representable := by
      intro kept hkept
      have hmem : kept ∈ recoverItems (scriptText (script layout)) := by
        rw [hrecovered]
        exact hkept
      exact representable_of_mem_recoverItems hmem
    exact representable_of_normalFrom hnormal
  · exact recoverItems_of_representable

end TicketPress
