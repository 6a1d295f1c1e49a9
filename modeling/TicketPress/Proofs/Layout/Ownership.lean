import TicketPress.Proofs.Layout.Following

/-!
# Whose a line is

Between the lines of the frame every line of a script belongs to an element,
and the lines of one element stand together. Which lines these are depends on
the element and on three things of the elements before it: the alignment of the
last one, and bold and size of the nearest text. `linesFor_script` says so for
layouts in which no two elements have the same identity. What stands after an
element has no part in its lines, so a longer layout begins with the script of
a shorter one.
-/

namespace TicketPress

/-! ## Blocks in their places -/

/-- The lines of an element on the printer as it stands. -/
def Element.lines (element : Element) (printer : Printer) : List ScriptLine :=
  blockLines element.id (element.toItem.instructions printer)

theorem elementLines_carried_cons (before : List Item) (element : Element)
    (rest : List Element) :
    elementLines (.carried before) (element :: rest) =
      element.lines (.carried before) ++
        elementLines (.carried (before ++ [element.toItem])) rest := by
  rw [elementLines, items, List.map_cons, blocks_carried_cons]
  rfl

/-- The lines of a layout go on where those of its first elements end. -/
theorem elementLines_append (before : List Item) (a b : List Element) :
    elementLines (.carried before) (a ++ b) =
      elementLines (.carried before) a ++ elementLines (.carried (before ++ items a)) b := by
  induction a generalizing before with
  | nil => simp [elementLines, blocks, items]
  | cons element a ih =>
      rw [List.cons_append, elementLines_carried_cons, elementLines_carried_cons, ih,
        List.append_assoc, List.append_assoc]
      rfl

/-- The lines of a layout are the blocks of its elements, one after another. -/
theorem elementLines_eq_flatten (before : List Item) (layout : List Element) :
    elementLines (.carried before) layout = (layout.mapIdx fun n element =>
      element.lines (.carried (before ++ items (layout.take n)))).flatten := by
  induction layout generalizing before with
  | nil => rfl
  | cons element layout ih =>
      rw [elementLines_carried_cons, ih, List.mapIdx_cons, List.flatten_cons]
      simp [items]

/-- Only a spacing of no height has no lines, and only after an element of its
alignment. -/
theorem Element.lines_carried_eq_nil_iff (element : Element) (before : List Element) :
    element.lines (.carried (items before)) = [] ↔
      element.content = .spacing 0 ∧
        ∃ previous, before.getLast? = some previous ∧ previous.align = element.align := by
  have halign : (Printer.carried (items before)).align = some element.align ↔
      ∃ previous, before.getLast? = some previous ∧ previous.align = element.align := by
    simp [Printer.carried, items]
  rw [lines, blockLines, List.map_eq_nil_iff, Item.instructions_eq, List.append_eq_nil_iff,
    Option.toList_eq_nil_iff, Item.printing?_eq_none_iff, ← halign, and_comm]
  refine and_congr_right fun hcontent => ?_
  simp [Item.changes, Item.isText, hcontent, Content.kind, Content.isOverlay, Content.height?,
    Printer.aligning?]

/-! ## The lines for an identity -/

theorem owner_of_mem_lines {element : Element} {printer : Printer} {line : ScriptLine}
    (h : line ∈ element.lines printer) : line.owner = some element.id := by
  obtain ⟨i, -, rfl⟩ := List.mem_map.mp h
  rfl

/-- A line of a layout belongs to one of its elements. -/
theorem exists_owner_of_mem_elementLines {before : List Item} {layout : List Element}
    {line : ScriptLine} (h : line ∈ elementLines (.carried before) layout) :
    ∃ element ∈ layout, line.owner = some element.id := by
  induction layout generalizing before with
  | nil => simp [elementLines] at h
  | cons element layout ih =>
      rw [elementLines_carried_cons, List.mem_append] at h
      rcases h with hblock | hrest
      · exact ⟨element, by simp, owner_of_mem_lines hblock⟩
      · obtain ⟨other, hother, howner⟩ := ih hrest
        exact ⟨other, by simp [hother], howner⟩

@[simp] theorem linesFor_append (id : String) (a b : List ScriptLine) :
    linesFor id (a ++ b) = linesFor id a ++ linesFor id b := List.filter_append a b

theorem linesFor_elementLines_of_not_mem {id : String} {layout : List Element}
    (h : id ∉ layout.map Element.id) (before : List Item) :
    linesFor id (elementLines (.carried before) layout) = [] := by
  apply List.filter_eq_nil_iff.mpr
  intro line hline howner
  obtain ⟨element, helement, hid⟩ := exists_owner_of_mem_elementLines hline
  rw [hid, beq_iff_eq, Option.some.injEq] at howner
  exact h (howner ▸ List.mem_map_of_mem helement)

theorem linesFor_lines (element : Element) (printer : Printer) :
    linesFor element.id (element.lines printer) = element.lines printer := by
  apply List.filter_eq_self.mpr
  intro line hline
  simp [owner_of_mem_lines hline]

/-- The lines of the frame belong to no element. -/
theorem owner_of_mem_frame {line : ScriptLine} (h : line ∈ preamble ++ trailer) :
    line.owner = none := by
  simp only [preamble, trailer, List.cons_append, List.nil_append, List.mem_cons,
    List.not_mem_nil, or_false] at h
  rcases h with rfl | rfl | rfl | rfl | rfl | rfl | rfl <;> rfl

/-- The lines for the identity of an element are its block. -/
theorem linesFor_script_of_split {before after : List Element} {element : Element}
    (h : ((before ++ element :: after).map Element.id).Nodup) :
    linesFor element.id (script (before ++ element :: after)) =
      element.lines (.carried (items before)) := by
  have hframe : ∀ lines : List ScriptLine, (∀ line ∈ lines, line ∈ preamble ++ trailer) →
      linesFor element.id lines = [] := by
    intro lines hlines
    apply List.filter_eq_nil_iff.mpr
    intro line hline
    simp [owner_of_mem_frame (hlines line hline)]
  rw [List.map_append, List.map_cons, List.nodup_append] at h
  obtain ⟨-, hafter, hapart⟩ := h
  have hbefore : element.id ∉ before.map Element.id := by
    intro hmem
    exact hapart _ hmem _ (by simp) rfl
  rw [script, ← Printer.carried_nil, elementLines_append, elementLines_carried_cons]
  simp only [linesFor_append, linesFor_lines, linesFor_elementLines_of_not_mem hbefore,
    linesFor_elementLines_of_not_mem (List.nodup_cons.mp hafter).1,
    hframe preamble fun line hline => List.mem_append_left _ hline,
    hframe trailer fun line hline => List.mem_append_right _ hline,
    List.nil_append, List.append_nil]

/-! ## Scripts -/

/-- In a layout whose elements have different identities the lines between the
frame are the blocks of the elements in their order, and each block is what is
found for the identity of its element. A block is empty only for a spacing of
no height behind an element of its alignment. It stays the same in any other
layout with the element in which the element before it has the same alignment
and the nearest text the same bold and size; and elements that are put behind
the layout leave all lines but those of the trailer where they are. -/
theorem linesFor_script {layout : List Element} (hids : (layout.map Element.id).Nodup) :
    (script layout = preamble ++ (layout.mapIdx fun n element =>
        element.lines (.carried (items (layout.take n)))).flatten ++ trailer ∧
      preamble.length = 5 ∧ trailer.length = 2 ∧
      ∀ line ∈ preamble ++ trailer, line.owner = none) ∧
    (∀ before element after, layout = before ++ element :: after →
      linesFor element.id (script layout) = element.lines (.carried (items before)) ∧
      (∀ line ∈ element.lines (.carried (items before)), line.owner = some element.id) ∧
      (element.lines (.carried (items before)) = [] ↔ element.content = .spacing 0 ∧
        ∃ previous, before.getLast? = some previous ∧ previous.align = element.align) ∧
      ∀ other before' after', other = before' ++ element :: after' →
        (other.map Element.id).Nodup →
        before'.getLast?.map (·.align) = before.getLast?.map (·.align) →
        carriedBold (items before') = carriedBold (items before) →
        carriedSize (items before') = carriedSize (items before) →
        linesFor element.id (script other) = linesFor element.id (script layout)) ∧
    ∀ more, (script layout).dropLast.dropLast <+: script (layout ++ more) := by
  refine ⟨⟨?_, rfl, rfl, fun line hline => owner_of_mem_frame hline⟩, ?_, ?_⟩
  · have hblocks := elementLines_eq_flatten [] layout
    rw [Printer.carried_nil] at hblocks
    rw [script, hblocks]
    rfl
  · rintro before element after rfl
    refine ⟨linesFor_script_of_split hids, fun line hline => owner_of_mem_lines hline,
      element.lines_carried_eq_nil_iff before, ?_⟩
    rintro other before' after' rfl hother halign hbold hsize
    have hcarried : Printer.carried (items before') = Printer.carried (items before) := by
      simp only [Printer.carried, hbold, hsize]
      simpa [items, Function.comp_def] using halign
    rw [linesFor_script_of_split hother, linesFor_script_of_split hids, hcarried]
  · intro more
    have hlonger : script (layout ++ more) = preamble ++ elementLines .unplaced layout ++
        (elementLines (.carried (items layout)) more ++ trailer) := by
      rw [script, ← Printer.carried_nil, elementLines_append]
      simp
    have hshorter : (script layout).dropLast.dropLast =
        preamble ++ elementLines .unplaced layout := by
      rw [script, trailer, List.dropLast_append_of_ne_nil (by simp)]
      simp
    rw [hlonger, hshorter]
    exact List.prefix_append _ _

/-- A layout with a spacing of no height between two texts. -/
def spacedLayout : List Element :=
  [{ content := .text "A", align := .center, size := .large, id := "e1" },
   { content := .spacing 0, align := .center, bold := true, id := "e2" },
   { content := .text "B", align := .center, id := "e3" }]

/-- The spacing has no line, and the text after it has the lines it would have
right after the first one. -/
theorem lines_around_emptySpacing :
    (spacedLayout.map Element.id).Nodup ∧ linesFor "e2" (script spacedLayout) = [] ∧
    linesFor "e3" (script (spacedLayout.eraseIdx 1)) = linesFor "e3" (script spacedLayout) := by
  have hids : (spacedLayout.map Element.id).Nodup := by decide
  have hblocks := (linesFor_script hids).2.1
  have hspacing := hblocks (spacedLayout.take 1) _ (spacedLayout.drop 2) rfl
  have htext := hblocks (spacedLayout.take 2) _ [] rfl
  refine ⟨hids, hspacing.1.trans (hspacing.2.2.1.mpr ⟨rfl, _, rfl, rfl⟩), ?_⟩
  exact htext.2.2.2 _ (spacedLayout.take 1) [] rfl (by decide) rfl rfl rfl

end TicketPress
