import TicketPress.Proofs.Layout.Style

/-!
# Replaying a written layout

The lines of the elements are replayed as instructions from the printer a
writer starts with. Every change of style then finds something to change, and
every content is printed in the style of its element: `change_is_needed`. What
has to be known of an instruction for this is the printer it finds, the
instruction before it and the one after it. The block of an element has it from
any printer on, and blocks can be put one behind the other, so the layout has
it as well.
-/

namespace TicketPress

/-! ## Instructions and their elements -/

/-- An instruction of a layout with the element in whose block it stands. -/
structure OwnedInstruction where
  owner : Element
  instruction : Instruction
  deriving Repr, DecidableEq

/-- The line of an instruction of an element. -/
def OwnedInstruction.line (given : OwnedInstruction) : ScriptLine :=
  ⟨given.instruction.line, some given.owner.id⟩

/-- The instructions of an element, from a printer on. -/
def Element.orders (element : Element) (printer : Printer) : List OwnedInstruction :=
  (element.toItem.instructions printer).map (OwnedInstruction.mk element)

/-- The printer after the instructions of elements. -/
def Printer.replay (printer : Printer) (list : List OwnedInstruction) : Printer :=
  printer.afterAll (list.map OwnedInstruction.instruction)

/-- The instructions of a layout, element after element. -/
def ownedInstructions : Printer → List Element → List OwnedInstruction
  | _, [] => []
  | printer, element :: rest =>
    element.orders printer ++ ownedInstructions (printer.replay (element.orders printer)) rest

@[simp] theorem Printer.replay_nil (printer : Printer) : printer.replay [] = printer := rfl

@[simp] theorem Printer.replay_cons (printer : Printer) (given : OwnedInstruction)
    (list : List OwnedInstruction) :
    printer.replay (given :: list) = (printer.after given.instruction).replay list := rfl

/-- For the printer it does not matter whose the instructions are. -/
theorem Printer.replay_map (printer : Printer) (element : Element) (list : List Instruction) :
    printer.replay (list.map (OwnedInstruction.mk element)) = printer.afterAll list := by
  rw [replay, List.map_map]
  exact congrArg printer.afterAll (List.map_id list)

/-- The lines of the elements are the lines of these instructions. -/
theorem elementLines_eq_map_line (printer : Printer) (layout : List Element) :
    elementLines printer layout = (ownedInstructions printer layout).map OwnedInstruction.line := by
  induction layout generalizing printer with
  | nil => rfl
  | cons element layout ih =>
      have hrest := ih (printer.replay (element.orders printer))
      have hblock : (element.orders printer).map OwnedInstruction.line =
          blockLines element.id (element.toItem.instructions printer) := by
        rw [Element.orders, List.map_map]
        rfl
      rw [ownedInstructions, List.map_append, ← hrest, hblock, Element.orders, Printer.replay_map]
      rfl

/-! ## What an instruction finds -/

/-- What is to be known of an instruction of an element: the printer it finds
and, for an alignment and a way back, the instruction after and before it. -/
inductive Needed (element : Element) (printer : Printer) (previous next : Option Instruction) :
    Instruction → Prop
  /-- The alignment is another one, or a way back follows. -/
  | align (h : printer.align ≠ some element.align ∨ ∃ dots, next = some (.retract dots)) :
    Needed element printer previous next (.setAlignment element.align)
  /-- A text wants bold otherwise. -/
  | bold (htext : element.isText = true) (h : printer.bold ≠ element.bold) :
    Needed element printer previous next (.setBold element.bold)
  /-- A text is not to be large. -/
  | size (htext : element.isText = true) (h : printer.size = .large) :
    Needed element printer previous next (.setFontSize .normal)
  /-- The style is that of the element, the size with the text included. -/
  | text (literal : Literal) (size : Option FontSize) (halign : printer.align = some element.align)
    (hbold : printer.bold = element.bold)
    (hsize : (printer.after (.text literal size)).size = element.size) :
    Needed element printer previous next (.text literal size)
  | image (file : List Char) (halign : printer.align = some element.align) :
    Needed element printer previous next (.loadImage file)
  | feed (dots : UInt32) (halign : printer.align = some element.align) :
    Needed element printer previous next (.feed dots)
  /-- The alignment was set right before. -/
  | retract (dots : UInt32) (halign : printer.align = some element.align)
    (hprevious : previous = some (.setAlignment element.align)) :
    Needed element printer previous next (.retract dots)

/-- What is known of the last instruction stays known when another follows. -/
theorem Needed.followed {element : Element} {printer : Printer} {previous : Option Instruction}
    {i : Instruction} (h : Needed element printer previous none i) (next : Option Instruction) :
    Needed element printer previous next i := by
  cases h with
  | align hother =>
      rcases hother with hne | ⟨dots, hnone⟩
      · exact .align (Or.inl hne)
      · exact absurd hnone (by simp)
  | bold htext hne => exact .bold htext hne
  | size htext hlarge => exact .size htext hlarge
  | text literal size halign hbold hsize => exact .text literal size halign hbold hsize
  | image file halign => exact .image file halign
  | feed dots halign => exact .feed dots halign
  | retract dots halign hprevious => exact .retract dots halign hprevious

/-- Instructions of which all this is known, from a printer on and after an
instruction. -/
def AllNeeded : Printer → Option Instruction → List OwnedInstruction → Prop
  | _, _, [] => True
  | printer, previous, given :: rest =>
    Needed given.owner printer previous (rest.head?.map OwnedInstruction.instruction)
        given.instruction ∧
      AllNeeded (printer.after given.instruction) (some given.instruction) rest

theorem allNeeded_singleton {printer : Printer} {previous : Option Instruction}
    {given : OwnedInstruction} :
    AllNeeded printer previous [given] ↔
      Needed given.owner printer previous none given.instruction := by
  simp [AllNeeded]

/-- Lists of instructions are put one behind the other, if the second one
depends on nothing before it. -/
theorem AllNeeded.append {printer : Printer} {previous : Option Instruction}
    {a b : List OwnedInstruction} (ha : AllNeeded printer previous a)
    (hb : ∀ before, AllNeeded (printer.replay a) before b) :
    AllNeeded printer previous (a ++ b) := by
  induction a generalizing printer previous with
  | nil => exact hb previous
  | cons given a ih =>
      obtain ⟨hgiven, hrest⟩ := ha
      refine ⟨?_, ih hrest hb⟩
      cases a with
      | nil => exact hgiven.followed _
      | cons next a => exact hgiven

/-- Each of the instructions is known in its place. -/
theorem AllNeeded.needed {printer : Printer} {previous : Option Instruction}
    {before after : List OwnedInstruction} {given : OwnedInstruction}
    (h : AllNeeded printer previous (before ++ given :: after)) :
    Needed given.owner (printer.replay before)
      ((before.getLast?.map OwnedInstruction.instruction).or previous)
      (after.head?.map OwnedInstruction.instruction) given.instruction := by
  induction before generalizing printer previous with
  | nil => exact h.1
  | cons first before ih =>
      have hrest := ih h.2
      have hlast : ((first :: before).getLast?.map OwnedInstruction.instruction).or previous =
          (before.getLast?.map OwnedInstruction.instruction).or (some first.instruction) := by
        cases before with
        | nil => rfl
        | cons second before => simp [List.getLast?_cons]
      rw [hlast]
      exact hrest

/-! ## Blocks -/

section Block

variable {element : Element} {printer : Printer} {previous : Option Instruction}

/-- An alignment that is not set in any case is another one than before. -/
theorem allNeeded_aligning? : AllNeeded printer previous
    ((printer.aligning? element.align false).toList.map (OwnedInstruction.mk element)) := by
  by_cases hsame : printer.align = some element.align
  · have hnone : printer.aligning? element.align false = none := by simp [Printer.aligning?, hsame]
    rw [hnone]
    trivial
  · have hsome : printer.aligning? element.align false = some (.setAlignment element.align) := by
      simp [Printer.aligning?, hsame]
    rw [hsome]
    exact allNeeded_singleton.mpr (.align (Or.inl hsame))

theorem allNeeded_resizing? (htext : element.isText = true) : AllNeeded printer previous
    ((printer.resizing? element.size).toList.map (OwnedInstruction.mk element)) := by
  unfold Printer.resizing?
  split
  · rename_i hlarge
    exact allNeeded_singleton.mpr (.size htext hlarge.2)
  · trivial

theorem allNeeded_emboldening? (htext : element.isText = true) : AllNeeded printer previous
    ((printer.emboldening? element.bold).toList.map (OwnedInstruction.mk element)) := by
  unfold Printer.emboldening?
  split
  · rename_i hother
    exact allNeeded_singleton.mpr (.bold htext hother)
  · trivial

/-- The style of a text is reached with changes that are needed. -/
theorem allNeeded_styled (htext : element.isText = true)
    (halign : printer.align = some element.align) (literal : Literal) :
    AllNeeded printer previous
      ((element.styling printer ++ [Instruction.text literal element.size.withText]).map
        (OwnedInstruction.mk element)) := by
  have hstyled := Printer.afterAll_styling printer element.bold element.size literal
  rw [Item.styling, List.append_assoc, List.map_append, List.map_append]
  refine (allNeeded_resizing? htext).append fun _ => ?_
  -- Taking the size back leaves bold alone, so bold is still to be compared.
  have hbold : (printer.replay ((printer.resizing? element.size).toList.map
      (OwnedInstruction.mk element))).emboldening? element.bold =
        printer.emboldening? element.bold := by
    unfold Printer.resizing?
    split <;> rfl
  rw [← hbold]
  refine (allNeeded_emboldening? htext).append fun _ => ?_
  rw [hbold, Printer.replay_map, Printer.replay_map, ← Printer.afterAll_append]
  generalize printer.afterAll ((printer.resizing? element.size).toList ++
    (printer.emboldening? element.bold).toList) = styled at hstyled ⊢
  have hkeeps : (styled.after (.text literal element.size.withText)).align = styled.align ∧
      (styled.after (.text literal element.size.withText)).bold = styled.bold := by
    cases element.size <;> exact ⟨rfl, rfl⟩
  rw [hstyled] at hkeeps
  exact allNeeded_singleton.mpr (.text literal element.size.withText
    (hkeeps.1.symm.trans halign) hkeeps.2.symm (by rw [hstyled]))

end Block

/-- In the block of an element all instructions are needed, whatever the
printer before it. -/
theorem Element.allNeeded_orders (element : Element) (printer : Printer)
    (previous : Option Instruction) :
    AllNeeded printer previous (element.orders printer) := by
  have hplaced := Printer.afterAll_aligning? printer element.align false
  cases hcontent : element.content with
  | text content =>
      have htext : element.isText = true := by rw [Item.isText, hcontent]; rfl
      have hoverlay : element.content.isOverlay = false := by rw [hcontent]; rfl
      rw [Element.orders, Item.instructions, hoverlay, hcontent, List.map_append]
      refine allNeeded_aligning?.append fun before => ?_
      rw [Printer.replay_map, hplaced]
      -- The changes of style do not look at the alignment.
      show AllNeeded { printer with align := some element.align } _
        ((element.styling { printer with align := some element.align } ++ [_]).map _)
      exact allNeeded_styled htext rfl (.ofContent content)
  | image picture fileName =>
      have hoverlay : element.content.isOverlay = false := by rw [hcontent]; rfl
      rw [Element.orders, Item.instructions, hoverlay, hcontent, List.map_append]
      refine allNeeded_aligning?.append fun before => ?_
      rw [Printer.replay_map, hplaced]
      exact allNeeded_singleton.mpr (.image _ rfl)
  | spacing height =>
      by_cases hback : height < 0
      · have hoverlay : element.content.isOverlay = true := by
          simp [hcontent, Content.isOverlay, Content.height?, hback]
        have hset : printer.aligning? element.align true = some (.setAlignment element.align) := by
          simp [Printer.aligning?]
        have hretract : spacingInstruction? height =
            some (.retract (UInt32.ofNat height.toInt.natAbs)) := by
          have hpos : ¬ 0 < height := by
            rw [Int32.lt_iff_toInt_lt] at hback ⊢
            omega
          rw [spacingInstruction?, if_neg hpos, if_pos hback]
        rw [Element.orders, Item.instructions, hoverlay, hcontent, hset]
        simp only [hretract]
        exact ⟨.align (Or.inr ⟨_, rfl⟩), .retract _ rfl rfl, trivial⟩
      · have hoverlay : element.content.isOverlay = false := by simp [hcontent, Content.isOverlay,
          Content.height?, hback]
        rw [Element.orders, Item.instructions, hoverlay, hcontent, List.map_append]
        refine allNeeded_aligning?.append fun before => ?_
        rw [Printer.replay_map, hplaced]
        simp only [spacingInstruction?, hback]
        split
        · exact allNeeded_singleton.mpr (.feed _ rfl)
        · trivial

/-! ## Layouts -/

/-- From one element to the next: what the block of each leaves is where the
blocks of the others start. -/
theorem allNeeded_ownedInstructions (layout : List Element) (printer : Printer)
    (previous : Option Instruction) :
    AllNeeded printer previous (ownedInstructions printer layout) := by
  induction layout generalizing printer previous with
  | nil => trivial
  | cons element layout ih =>
      exact (element.allNeeded_orders printer previous).append fun before => ih _ before

/-- As long as no alignment is known, the next element sets its own. -/
theorem setAlignment_of_head? {layout : List Element} {printer : Printer}
    (h : printer.align = none) {given : OwnedInstruction}
    (hhead : (ownedInstructions printer layout).head? = some given) :
    given.instruction = .setAlignment given.owner.align := by
  cases layout with
  | nil => simp [ownedInstructions] at hhead
  | cons element layout =>
      obtain rfl : OwnedInstruction.mk element (.setAlignment element.align) = given := by
        simpa [ownedInstructions, Element.orders, Item.instructions, Printer.aligning?, h]
          using hhead
      rfl

/-- What makes an instruction of a layout needed where it stands, between the
instructions before and after it. The printer is the one that a replay of those
before it leaves, from a printer whose alignment is not known. -/
structure OwnedInstruction.Justified (before : List OwnedInstruction) (given : OwnedInstruction)
    (after : List OwnedInstruction) : Prop where
  /-- The first instruction sets an alignment. -/
  first : before = [] → ∃ align, given.instruction = .setAlignment align
  /-- An alignment is set where it is another one or not known, or right before
  a way back. -/
  alignment : ∀ align, given.instruction = .setAlignment align →
    (Printer.unplaced.replay before).align ≠ some align ∨
      ∃ dots, after.head?.map OwnedInstruction.instruction = some (.retract dots)
  /-- Right before a way back the alignment of its element is set. -/
  retract : ∀ dots, given.instruction = .retract dots →
    before.getLast?.map OwnedInstruction.instruction = some (.setAlignment given.owner.align)
  /-- Bold is turned on where it is off, and off where it is on. -/
  bold : ∀ bold, given.instruction = .setBold bold →
    (Printer.unplaced.replay before).bold = !bold
  /-- The only size that is set without a text is the normal one, where the size
  is large. -/
  size : ∀ size, given.instruction = .setFontSize size →
    size = .normal ∧ (Printer.unplaced.replay before).size = .large
  /-- Bold and size are set for texts only. -/
  style : ((∃ bold, given.instruction = .setBold bold) ∨
      ∃ size, given.instruction = .setFontSize size) → given.owner.content.kind = .text
  /-- What prints does so in the alignment of its element. -/
  placed : ∀ content, given.instruction.content? = some content →
    (Printer.unplaced.replay before).align = some given.owner.align
  /-- A text is printed in the bold and size of its element, the size that comes
  with it included. -/
  styled : ∀ literal size, given.instruction = .text literal size →
    ((Printer.unplaced.replay before).after given.instruction).bold = given.owner.bold ∧
      ((Printer.unplaced.replay before).after given.instruction).size = given.owner.size

theorem Needed.justified {before after : List OwnedInstruction} {given : OwnedInstruction}
    (h : Needed given.owner (Printer.unplaced.replay before)
      (before.getLast?.map OwnedInstruction.instruction)
      (after.head?.map OwnedInstruction.instruction) given.instruction)
    (hfirst : before = [] → ∃ align, given.instruction = .setAlignment align) :
    given.Justified before after := by
  have htext : ∀ {element : Element}, element.isText = true → element.content.kind = .text := by
    intro element hkind
    simpa [Item.isText] using hkind
  refine ⟨hfirst, ?_, ?_, ?_, ?_, ?_, ?_, ?_⟩
  · intro align hi
    rw [hi] at h
    cases h with
    | align hother => exact hother
  · intro dots hi
    rw [hi] at h
    cases h with
    | retract _ halign hprevious => exact hprevious
  · intro bold hi
    rw [hi] at h
    cases h with
    | bold htext hne => exact Bool.eq_not_of_ne hne
  · intro size hi
    rw [hi] at h
    cases h with
    | size htext hlarge => exact ⟨rfl, hlarge⟩
  · rintro (⟨bold, hi⟩ | ⟨size, hi⟩)
    · rw [hi] at h
      cases h with
      | bold hkind hne => exact htext hkind
    · rw [hi] at h
      cases h with
      | size hkind hlarge => exact htext hkind
  · intro content hprints
    cases hi : given.instruction with
    | text | loadImage | feed | retract =>
        rw [hi] at h
        cases h
        assumption
    | _ => simp [hi, Instruction.content?] at hprints
  · intro literal size hi
    rw [hi] at h ⊢
    cases h with
    | text _ _ halign hbold hsize =>
        refine ⟨?_, hsize⟩
        rw [← hbold]
        cases size <;> rfl

/-- The lines of the elements of a layout are those of its instructions, and
each of these is needed where it stands. -/
theorem change_is_needed {layout : List Element} {before after : List OwnedInstruction}
    {given : OwnedInstruction}
    (h : ownedInstructions .unplaced layout = before ++ given :: after) :
    script layout =
      preamble ++ (before ++ given :: after).map OwnedInstruction.line ++ trailer ∧
    given.Justified before after := by
  have hall : AllNeeded .unplaced none (before ++ given :: after) :=
    h ▸ allNeeded_ownedInstructions layout .unplaced none
  have hneeded := hall.needed
  rw [Option.or_none] at hneeded
  refine ⟨by rw [script, elementLines_eq_map_line, h], hneeded.justified ?_⟩
  rintro rfl
  exact ⟨_, setAlignment_of_head? rfl (by rw [h]; rfl)⟩

/-- A large text and, printed over it, a normal one with an image between
them. -/
def overprintedLayout : List Element :=
  [{ content := .text "A", bold := true, size := .large, id := "e1" },
   { content := .spacing (-24), bold := true, id := "e2" },
   { content := .image "" none, size := .large, id := "e3" },
   { content := .text "B", id := "e4" }]

/-- The size is taken back for the second text, after the image. -/
theorem size_taken_back_after_image : ∃ before given after,
    ownedInstructions .unplaced overprintedLayout = before ++ given :: after ∧
    given.owner.id = "e4" ∧ given.instruction = .setFontSize .normal ∧
    (Printer.unplaced.replay before).size = .large := by
  have h : ownedInstructions .unplaced overprintedLayout =
      (ownedInstructions .unplaced overprintedLayout).take 6 ++
        ⟨⟨⟨.text "B", .left, false, .normal⟩, "e4"⟩, .setFontSize .normal⟩ ::
          (ownedInstructions .unplaced overprintedLayout).drop 7 := by decide
  exact ⟨_, _, _, h, rfl, rfl, ((change_is_needed h).2.size _ rfl).2⟩

end TicketPress
