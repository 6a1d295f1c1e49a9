import TicketPress.Proofs.Layout.NormalForm
import TicketPress.Proofs.Script.Truncation

/-!
# Scripts that break off

A script can end at any character. The lines before its last line feed are
whole and give what they give in the whole script. Of the line after it, which
may have lost its end, nothing comes that the whole line would not give, except
one thing: an image under the fallback name can stand where the line would have
printed a text or an image. So a beginning of a script gives a beginning of its
items and perhaps such an image: `recoverItems_of_cut`.
-/

namespace TicketPress

/-! ## Lines of a script -/

/-- A line of the script of a representable layout. -/
inductive IsSafeLine : List Char → Prop
  | blank : IsSafeLine []
  | charset : IsSafeLine Instruction.selectCharset.line
  | safe {i : Instruction} (h : i ≠ .selectCharset) (hsafe : i.Safe) : IsSafeLine i.line

theorem safe_of_mem_blocks {list : List Item} (h : ∀ item ∈ list, item.Representable)
    {printer : Printer} {i : Instruction} (hi : i ∈ (blocks printer list).flatten) :
    i ≠ .selectCharset ∧ i.Safe := by
  induction list generalizing printer with
  | nil => simp [blocks] at hi
  | cons item rest ih =>
      rw [blocks, List.flatten_cons, List.mem_append] at hi
      rcases hi with hfirst | hrest
      · exact (h item (by simp)).of_mem_instructions hfirst
      · exact ih (fun other hother => h other (List.mem_cons_of_mem item hother)) hrest

theorem isSafeLine_of_mem_script {layout : List Element}
    (h : ∀ item ∈ items layout, item.Representable) {line : List Char}
    (hline : line ∈ (script layout).map ScriptLine.text) : IsSafeLine line := by
  rcases cases_of_mem_script hline with rfl | ⟨i, rfl, hframe | hblock⟩
  · exact .blank
  · by_cases hcharset : i = .selectCharset
    · rw [hcharset]
      exact .charset
    · refine .safe hcharset ?_
      simp only [frameInstructions, List.mem_cons, List.not_mem_nil, or_false] at hframe
      rcases hframe with rfl | rfl | rfl | rfl <;>
        exact Instruction.safe_of_payload_eq_nil rfl (by simp)
  · obtain ⟨hne, hsafe⟩ := safe_of_mem_blocks h hblock
    exact .safe hne hsafe

/-! ## A line that breaks off -/

/-- An item that a line gave before it was whole, and the item of the whole
line: an image without a name of its own, in the place of a text or an image. -/
structure Item.StandsInFor (found item : Item) : Prop where
  content : found.content = .image "" (some fallbackFile)
  prints : item.content.kind ≠ .spacing
  align : found.align = item.align
  bold : found.bold = item.bold

theorem readings_singleton (line : List Char) :
    readings [line] = ((liveCode? line).map recognize).toList := by
  rw [readings_cons, readings_nil, List.append_nil]

/-- An instruction with an inner call prints a text or an image in the style of
the printer before it. -/
theorem exists_item?_of_inner? {i : Instruction} (h : i.inner? ≠ none) (printer : Printer) :
    ∃ item, (printer.after i).item? i = some item ∧ item.content.kind ≠ .spacing ∧
      item.align = printer.alignment ∧ item.bold = printer.bold := by
  cases i with
  | text literal size =>
      refine ⟨_, rfl, by simp [Content.kind], ?_, ?_⟩
      · cases size <;> rfl
      · cases size <;> rfl
  | loadImage file => exact ⟨_, rfl, by simp [Content.kind], rfl, rfl⟩
  | _ => exact absurd rfl h

/-- A line that breaks off gives no item but that of the whole line, or one
that stands in for it. -/
theorem gather_cut (printer : Printer) {line cut : List Char} (hline : IsSafeLine line)
    (hcut : cut <+: line) :
    printer.gather (readings [cut]) <+: printer.gather (readings [line]) ∨
      ∃ found item, printer.gather (readings [cut]) = [found] ∧
        printer.gather (readings [line]) = [item] ∧ found.StandsInFor item := by
  cases hline with
  | blank =>
      rw [List.prefix_nil.mp hcut]
      exact Or.inl List.prefix_rfl
  | charset =>
      have hnone : liveCode? cut = none := by
        rw [liveCode?, Option.filter_eq_none_iff]
        intro code hcode
        have hfree : Text.occurs outputCall Instruction.selectCharset.line = false := by decide
        have hin := (codePart?_isInfix hcode).trans hcut.isInfix
        simp [Text.not_occurs_of_infix hfree hin]
      rw [readings_singleton cut, hnone]
      exact Or.inl List.nil_prefix
  | @safe i h hsafe =>
      have hreading := Instruction.cutReading_line h hsafe hcut
      rw [readings_singleton, readings_singleton, Instruction.recognize_line h hsafe]
      generalize (liveCode? cut).map recognize = reading at hreading ⊢
      cases hreading with
      | whole => exact Or.inl List.prefix_rfl
      | silent => exact Or.inl List.nil_prefix
      | unread => exact Or.inl List.nil_prefix
      | mention hinner =>
          obtain ⟨item, hitem, hkind, halign, hbold⟩ := exists_item?_of_inner? hinner printer
          refine Or.inr ⟨_, item, rfl, ?_, rfl, hkind, halign.symm, hbold.symm⟩
          show ((printer.after i).item? i).toList ++ [] = [item]
          rw [hitem]
          rfl

/-! ## Whole scripts -/

/-- The lines of a text that a line feed ends. -/
def wholeLines (text : List Char) : List Char := ['\n'].intercalate (Text.pieces text).dropLast

theorem readings_wholeLines (text : List Char) :
    readings (Text.pieces (wholeLines text)) = readings (Text.pieces text).dropLast := by
  rw [wholeLines]
  cases hwhole : (Text.pieces text).dropLast with
  | nil => rfl
  | cons first rest =>
      rw [Text.pieces_intercalate (List.cons_ne_nil first rest)]
      intro line hline
      rw [← hwhole] at hline
      exact Text.lineFeed_not_mem_of_mem_pieces ((List.dropLast_sublist _).subset hline)

/-- Wherever the script of a representable layout breaks off, what its whole
lines gave stays. All that is recovered is a beginning of the items of the
script, but for an image under the fallback name that can stand in for the item
of the line that broke off. -/
theorem recoverItems_of_cut {layout : List Element}
    (h : ∀ item ∈ items layout, item.Representable) {cut : List Char}
    (hcut : cut <+: scriptText (script layout)) :
    recoverItems (wholeLines cut) <+: recoverItems cut ∧
      (recoverItems cut <+: recoverItems (scriptText (script layout)) ∨
        ∃ found item, recoverItems cut = recoverItems (wholeLines cut) ++ [found] ∧
          recoverItems (wholeLines cut) ++ [item] <+:
            recoverItems (scriptText (script layout)) ∧
          found.StandsInFor item) := by
  have hfeeds : ∀ item ∈ items layout, item.lineFeeds = 0 :=
    fun item hitem => (h item hitem).lineFeeds_eq_zero
  have hlines : ∀ line ∈ (script layout).map ScriptLine.text, '\n' ∉ line :=
    List.forall_mem_map.mpr (forall_mem_script_iff.mpr hfeeds)
  obtain ⟨whole, line, more, last, hsplit, hlast, hpieces⟩ :=
    Text.pieces_of_prefix_intercalate (by simp [script, preamble]) hlines hcut
  have hsafe : IsSafeLine line :=
    isSafeLine_of_mem_script h (by rw [hsplit]; simp)
  have hbefore : recoverItems (wholeLines cut) = Printer.initial.gather (readings whole) := by
    rw [recoverItems_eq, readings_wholeLines, hpieces, List.dropLast_concat]
  have hfound : recoverItems cut = recoverItems (wholeLines cut) ++
      (Printer.initial.afterReadings (readings whole)).gather (readings [last]) := by
    rw [hbefore, recoverItems_eq, hpieces, readings_append, Printer.gather_append]
  have hall : recoverItems (wholeLines cut) ++
      (Printer.initial.afterReadings (readings whole)).gather (readings [line]) <+:
        recoverItems (scriptText (script layout)) := by
    have hgrouped : (script layout).map ScriptLine.text = whole ++ [line] ++ more := by
      rw [hsplit, List.append_assoc, List.singleton_append]
    rw [hbefore, recoverItems_eq, pieces_scriptText hfeeds, hgrouped, readings_append,
      readings_append, Printer.gather_append, Printer.gather_append]
    exact List.prefix_append _ _
  refine ⟨hfound ▸ List.prefix_append _ _, ?_⟩
  rcases gather_cut (Printer.initial.afterReadings (readings whole)) hsafe hlast with
    hshort | ⟨found, item, hcutItem, hitem, hstands⟩
  · rw [hfound]
    exact Or.inl (((List.prefix_append_right_inj _).mpr hshort).trans hall)
  · rw [hcutItem] at hfound
    rw [hitem] at hall
    exact Or.inr ⟨found, item, hfound, hall, hstands⟩

/-- A heading and a text about the reading of files. -/
def notedLayout : List Element :=
  [{ content := .text "Total", align := .center, size := .large, id := "a" },
   { content := .text "see File.ReadAllBytes", bold := true, id := "b" }]

/-- Its script up to the last letter of the second text. -/
def brokenScript : List Char := (scriptText (script notedLayout)).take 360

/-- The heading is recovered, and an image stands in for the second text. -/
theorem image_standsIn_for_note : (∀ item ∈ items notedLayout, item.Representable) ∧
    brokenScript <+: scriptText (script notedLayout) ∧
    recoverItems brokenScript =
      [{ content := .text "Total", align := .center, size := .large },
       { content := .image "" (some fallbackFile), bold := true }] ∧
    ∃ found item, recoverItems brokenScript = recoverItems (wholeLines brokenScript) ++ [found] ∧
      recoverItems (wholeLines brokenScript) ++ [item] <+:
        recoverItems (scriptText (script notedLayout)) ∧
      found.StandsInFor item := by
  have hrepresentable : ∀ item ∈ items notedLayout, item.Representable := by decide +kernel
  have hcut : brokenScript <+: scriptText (script notedLayout) := List.take_prefix _ _
  have hfound : recoverItems brokenScript =
      [{ content := .text "Total", align := .center, size := .large },
       { content := .image "" (some fallbackFile), bold := true }] := by decide +kernel
  have hmore : ¬ recoverItems brokenScript <+: recoverItems (scriptText (script notedLayout)) := by
    decide +kernel
  exact ⟨hrepresentable, hcut, hfound,
    (recoverItems_of_cut hrepresentable hcut).2.resolve_left hmore⟩

end TicketPress
