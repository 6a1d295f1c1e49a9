import Mathlib.Order.Fin.Basic
import TicketPress.Proofs.Layout.Following
import TicketPress.Proofs.Script.Opening

/-!
# Where recovered items come from

Content is not under control: it may close its quotes, start a remark or spell
out statements of its own. All it can do to a layout is to get its own text
lost, shortened or taken for an image. Every recovered item has its source, the
sources are in order, and images and spacings are always found. The size of the
reader may lag behind a large text that was lost, but a text that is recovered
never shows it.
-/

namespace TicketPress

/-! ## One item -/

/-- What is sure of an item that was recovered from the line of another, which
stands after some items. -/
structure Item.RecoveredAs (before : List Item) (item found : Item) : Prop where
  align : found.align = item.align
  /-- Bold is that of the nearest text up to the source. -/
  bold : found.bold = carriedBold (before ++ [item])
  content : match item.content with
    | .text _ => found.content.kind = .text ∨ found.content.kind = .image
    | .image .. => found.content.kind = .image
    | .spacing height => height ≠ 0 ∧ found.content = .spacing height
  size : item.content.kind = .text → found.content.kind = .text → found.size = item.size

theorem Printer.Follows.style {reader : Printer} {before : List Item} {item : Item}
    (h : reader.Follows (.carried (before ++ [item]))) :
    reader.alignment = item.align ∧ reader.bold = carriedBold (before ++ [item]) := by
  constructor
  · rw [Printer.alignment, h.align item.align (Printer.carried_align_concat before item)]
    rfl
  · exact h.bold

/-- What a reader makes of the block of an item: it goes on following the
writer, and it finds one item, or nothing in place of a text and of a spacing of
no height. -/
structure Item.ReadBy (before : List Item) (item : Item) (reader : Printer)
    (list : List Recognition) : Prop where
  follows : (reader.afterReadings list).Follows (.carried (before ++ [item]))
  found : (∃ found, reader.gather list = [found] ∧ item.RecoveredAs before found) ∨
    reader.gather list = [] ∧ (item.content.kind = .text ∨ item.content = .spacing 0)

section Line

variable {before : List Item} {reader writer : Printer}

/-- An instruction that prints gives an item in the style of the reader after
it, so only content and size are left to be compared with those of the source. -/
theorem Item.readBy_instruction {item : Item} {j : Instruction} {content : Content}
    (hcontent : j.content? = some content)
    (hfollows : (reader.after j).Follows (.carried (before ++ [item])))
    (hkind : match item.content with
      | .text _ => content.kind = .text ∨ content.kind = .image
      | .image .. => content.kind = .image
      | .spacing height => height ≠ 0 ∧ content = .spacing height)
    (hsize : item.content.kind = .text → content.kind = .text →
      (reader.after j).size = item.size) :
    item.ReadBy before reader [.instruction j] := by
  obtain ⟨halign, hbold⟩ := hfollows.style
  have hgather : reader.gather [.instruction j] = [⟨content, (reader.after j).alignment,
      (reader.after j).bold, (reader.after j).size⟩] := by
    simp [Printer.gather, Recognition.item?, Recognition.printerAfter, Printer.item?, hcontent]
  exact ⟨hfollows, Or.inl ⟨_, hgather, halign, hbold, hkind, hsize⟩⟩

theorem readBy_text {content : String} {align : Alignment} {bold : Bool} {size : FontSize}
    (hfollows : reader.Follows writer)
    (hafter : writer.after (.text (.ofContent content) size.withText) =
      .carried (before ++ [⟨.text content, align, bold, size⟩]))
    (hnormal : size = .normal → writer.size = .normal) {r : Recognition}
    (hmay : (Instruction.text (.ofContent content) size.withText).MayRead r) :
    Item.ReadBy before ⟨.text content, align, bold, size⟩ reader [r] := by
  -- A text that is not found as a text can only make the writer large.
  have hlost : reader.Follows (.carried (before ++ [⟨.text content, align, bold, size⟩])) := by
    rw [← hafter]
    exact hfollows.after_withText (.ofContent content) size
  rcases hmay with ⟨literal, rfl⟩ | ⟨file, rfl⟩ | rfl
  · have hwriter : writer.after (.text literal size.withText) =
        .carried (before ++ [⟨.text content, align, bold, size⟩]) := by
      rw [← hafter]
      cases size <;> rfl
    apply Item.readBy_instruction rfl
    · rw [← hwriter]
      exact hfollows.after (.text literal size.withText)
    · exact Or.inl rfl
    · intro _ _
      cases size with
      | large => rfl
      | normal =>
          show reader.size = .normal
          cases hlarge : reader.size with
          | normal => rfl
          | large =>
              -- A reader that is large would follow a writer that is large.
              have hwrong := hfollows.size hlarge
              rw [hnormal rfl] at hwrong
              exact absurd hwrong (by simp)
  · apply Item.readBy_instruction rfl
    · exact hlost
    · exact Or.inr rfl
    · intro _ himage
      exact absurd himage (by simp [Content.kind])
  · exact ⟨hlost, Or.inr ⟨rfl, Or.inl rfl⟩⟩

theorem readBy_image {picture : String} {fileName : Option String} {align : Alignment}
    {bold : Bool} {size : FontSize} (hfollows : reader.Follows writer)
    (hafter : writer.after (.loadImage (loadName fileName).toList) =
      .carried (before ++ [⟨.image picture fileName, align, bold, size⟩])) {r : Recognition}
    (hmay : (Instruction.loadImage (loadName fileName).toList).MayRead r) :
    Item.ReadBy before ⟨.image picture fileName, align, bold, size⟩ reader [r] := by
  obtain ⟨file, rfl⟩ := hmay
  apply Item.readBy_instruction rfl
  · rw [← hafter]
    exact hfollows.after (.loadImage file)
  · rfl
  · intro htext
    exact absurd htext (by simp [Content.kind])

theorem readBy_spacing {height : Int32} {align : Alignment} {bold : Bool} {size : FontSize}
    {i : Instruction} (hspacing : spacingInstruction? height = some i)
    (hfollows : reader.Follows writer)
    (hafter : writer.after i = .carried (before ++ [⟨.spacing height, align, bold, size⟩]))
    {r : Recognition} (hmay : i.MayRead r) :
    Item.ReadBy before ⟨.spacing height, align, bold, size⟩ reader [r] := by
  have hne : height ≠ 0 := by
    intro hzero
    rw [spacingInstruction?_eq_none_iff.mpr hzero] at hspacing
    exact absurd hspacing (by simp)
  have hcontent := content?_spacingInstruction? height
  rw [hspacing, Option.bind_some, if_neg hne] at hcontent
  obtain rfl : r = .instruction i := by
    rcases spacingInstruction?_cases hspacing with ⟨dots, rfl⟩ | ⟨dots, rfl⟩ <;> exact hmay
  apply Item.readBy_instruction hcontent
  · rw [← hafter]
    exact hfollows.after i
  · exact ⟨hne, rfl⟩
  · intro htext
    exact absurd htext (by simp [Content.kind])

/-- The line of an item, read by a reader that follows the writer. -/
theorem Item.readBy_line {item : Item} {i : Instruction} (hprint : item.printing? = some i)
    (hfollows : reader.Follows writer) (hafter : writer.after i = .carried (before ++ [item]))
    (hnormal : item.isText = true → item.size = .normal → writer.size = .normal) :
    item.ReadBy before reader (readings [i.line]) := by
  obtain ⟨r, hread, hmay⟩ := Instruction.mayRead_line (printing?_ne_selectCharset hprint)
  have hreadings : readings [i.line] = [r] := by
    rw [readings_cons, hread, readings_nil]
    rfl
  rw [hreadings]
  obtain ⟨content, align, bold, size⟩ := item
  cases content with
  | text content =>
      obtain rfl : Instruction.text (.ofContent content) size.withText = i := by
        simpa [printing?] using hprint
      exact readBy_text hfollows hafter (hnormal rfl) hmay
  | image picture fileName =>
      obtain rfl : Instruction.loadImage (loadName fileName).toList = i := by
        simpa [printing?] using hprint
      exact readBy_image hfollows hafter hmay
  | spacing height => exact readBy_spacing hprint hfollows hafter hmay

end Line

/-- The block of an item, read by a reader that follows the writer. -/
theorem Item.readBy_block (item : Item) {before : List Item} {reader : Printer}
    (hfollows : reader.Follows (.carried before)) :
    item.ReadBy before reader
      (readings ((item.instructions (.carried before)).map Instruction.line)) := by
  have hchanged := hfollows.afterAll (item.changes (.carried before))
  have hafter := Printer.afterAll_instructions before item
  rw [instructions_eq, Printer.afterAll_append] at hafter
  -- The changes of style move the reader, and what prints is read from there.
  suffices hline : item.ReadBy before (reader.afterAll (item.changes (.carried before)))
      (readings (item.printing?.toList.map Instruction.line)) by
    constructor
    · rw [afterReadings_block]
      exact hline.follows
    · rw [gather_block]
      exact hline.found
  cases hprint : item.printing? with
  | none =>
      rw [hprint, Option.toList_none, Printer.afterAll_nil] at hafter
      rw [hafter] at hchanged
      exact ⟨hchanged, Or.inr ⟨rfl, Or.inr (printing?_eq_none_iff.mp hprint)⟩⟩
  | some i =>
      rw [hprint, Option.toList_some, Printer.afterAll_cons, Printer.afterAll_nil] at hafter
      apply readBy_line hprint hchanged hafter
      intro htext hsize
      exact Printer.afterAll_changes_size htext hsize _

/-! ## All items -/

/-- Recovered items embed into the items that are left after others: each comes
from one of them, in order, and only texts and spacings of no height are
missing. -/
inductive Embeds : (before rest found : List Item) → Prop
  | nil (before : List Item) : Embeds before [] []
  | kept {before rest found : List Item} {item first : Item}
    (h : item.RecoveredAs before first) (hrest : Embeds (before ++ [item]) rest found) :
    Embeds before (item :: rest) (first :: found)
  | lost {before rest found : List Item} {item : Item}
    (h : item.content.kind = .text ∨ item.content = .spacing 0)
    (hrest : Embeds (before ++ [item]) rest found) : Embeds before (item :: rest) found

theorem embeds_blocks {before rest : List Item} {reader : Printer}
    (hfollows : reader.Follows (.carried before)) :
    Embeds before rest
      (reader.gather (readings ((blocks (.carried before) rest).flatten.map
        Instruction.line))) := by
  induction rest generalizing before reader with
  | nil => exact .nil before
  | cons item rest ih =>
      obtain ⟨hstep, hfound⟩ := item.readBy_block hfollows
      rw [blocks_carried_cons, List.flatten_cons, List.map_append, readings_append,
        Printer.gather_append]
      rcases hfound with ⟨found, hgather, hrecovered⟩ | ⟨hgather, hlost⟩
      · rw [hgather]
        exact .kept hrecovered (ih hstep)
      · rw [hgather]
        exact .lost hlost (ih hstep)

/-- An embedding as a map of places: it is strictly increasing, and it hits
every item that cannot be missing. -/
theorem Embeds.exists_source {before rest found : List Item} (h : Embeds before rest found) :
    ∃ source : Fin found.length → Fin rest.length, StrictMono source ∧
      (∀ j, rest[source j].RecoveredAs (before ++ rest.take (source j)) found[j]) ∧
      ∀ k : Fin rest.length, rest[k].content.kind ≠ .text → rest[k].content ≠ .spacing 0 →
        ∃ j, source j = k := by
  induction h with
  | nil before => exact ⟨id, strictMono_id, fun j => j.elim0, fun k => k.elim0⟩
  | @kept before rest found item first h hrest ih =>
      obtain ⟨source, hmono, hrecovered, hhit⟩ := ih
      refine ⟨Fin.cases 0 fun j => (source j).succ, ?_, ?_, ?_⟩
      · intro j k hjk
        cases j using Fin.cases with
        | zero =>
            cases k using Fin.cases with
            | zero => exact absurd hjk (by simp)
            | succ k => exact Fin.succ_pos (source k)
        | succ j =>
            cases k using Fin.cases with
            | zero => exact absurd hjk (by simp)
            | succ k => exact Fin.succ_lt_succ_iff.mpr (hmono (Fin.succ_lt_succ_iff.mp hjk))
      · intro j
        cases j using Fin.cases with
        | zero => simpa using h
        | succ j => simpa using hrecovered j
      · intro k hkind hzero
        cases k using Fin.cases with
        | zero => exact ⟨0, rfl⟩
        | succ k =>
            obtain ⟨j, hj⟩ := hhit k hkind hzero
            exact ⟨j.succ, congrArg Fin.succ hj⟩
  | @lost before rest found item h hrest ih =>
      obtain ⟨source, hmono, hrecovered, hhit⟩ := ih
      refine ⟨fun j => (source j).succ, ?_, ?_, ?_⟩
      · exact fun j k hjk => Fin.succ_lt_succ_iff.mpr (hmono hjk)
      · intro j
        simpa using hrecovered j
      · intro k hkind hzero
        cases k using Fin.cases with
        | zero =>
            rcases h with htext | hnone
            · exact absurd htext hkind
            · exact absurd hnone hzero
        | succ k =>
            obtain ⟨j, hj⟩ := hhit k hkind hzero
            exact ⟨j, congrArg Fin.succ hj⟩

/-- Whatever its content, as long as no image has a line feed in its name, a
layout comes back as follows. Every recovered item has a source among the items
of the layout, with the sources in order; so none is the source of two. It has
the alignment of its source and the bold of the nearest text up to it, its
content is of the kind `RecoveredAs` tells, and a text that comes from a text
has its size. Images and spacings that have a height are all found. -/
theorem exists_source_of_recovered (layout : List Element) (h : NamesStayOnLine layout) :
    ∃ source : Fin (recoverItems (scriptText (script layout))).length →
        Fin (items layout).length,
      StrictMono source ∧
      (∀ j, (items layout)[source j].RecoveredAs ((items layout).take (source j))
        (recoverItems (scriptText (script layout)))[j]) ∧
      ∀ k : Fin (items layout).length, (items layout)[k].content.kind ≠ .text →
        (items layout)[k].content ≠ .spacing 0 → ∃! j, source j = k := by
  have hembeds : Embeds [] (items layout) (recoverItems (scriptText (script layout))) := by
    rw [recoverItems_script (namesStayOnLine_iff.mp h)]
    exact embeds_blocks Printer.follows_unplaced
  obtain ⟨source, hmono, hrecovered, hhit⟩ := hembeds.exists_source
  refine ⟨source, hmono, hrecovered, fun k hkind hzero => ?_⟩
  obtain ⟨j, hj⟩ := hhit k hkind hzero
  exact ⟨j, hj, fun j' hj' => hmono.injective (hj'.trans hj.symm)⟩

/-- A layout whose first text closes its quotes and calls the printer, and whose
second one is a remark. -/
def disturbedLayout : List Element :=
  [{ content := .text "a\")); BinaryOut(0x1B, 0x4A, 99);", size := .large, id := "e1" },
   { content := .text "//", bold := true, id := "e2" },
   { content := .spacing (-5), align := .center, id := "e3" },
   { content := .image "" (some "x\"y"), id := "e4" }]

/-- The spacing of this layout is found in its place, in bold. -/
theorem spacing_survives_disturbance :
    NamesStayOnLine disturbedLayout ∧
    ∃ found ∈ recoverItems (scriptText (script disturbedLayout)),
      found.content = .spacing (-5) ∧ found.align = .center ∧ found.bold = true := by
  have hnames : NamesStayOnLine disturbedLayout := by
    rw [namesStayOnLine_iff]
    decide
  obtain ⟨source, -, hrecovered, hhit⟩ := exists_source_of_recovered disturbedLayout hnames
  obtain ⟨j, hj, -⟩ := hhit ⟨2, by decide⟩ (by decide) (by decide)
  have hfound := hrecovered j
  simp only [hj] at hfound
  have hcontent : (-5 : Int32) ≠ 0 ∧
      (recoverItems (scriptText (script disturbedLayout)))[j].content = .spacing (-5) :=
    hfound.content
  exact ⟨hnames, _, List.getElem_mem _, hcontent.2, hfound.align, hfound.bold⟩

end TicketPress
