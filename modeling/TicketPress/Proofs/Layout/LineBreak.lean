import TicketPress.Proofs.Layout.Lines

/-!
# One instruction, one line

The text of a script is meant to be cut into its lines again. Content never
gets in the way of that, since it is escaped. The name of an image is written
as it is, and every line feed in it breaks the line in two.
-/

namespace TicketPress

/-- The lines of a script hold no line feed, and its text is cut into just
these lines, exactly if no name of an image holds one. Every line feed in a
name adds a piece. -/
theorem lines_whole_iff (layout : List Element) :
    ((∀ line ∈ script layout, '\n' ∉ line.text) ↔ NamesStayOnLine layout) ∧
    (Text.pieces (scriptText (script layout)) = (script layout).map ScriptLine.text ↔
      NamesStayOnLine layout) ∧
    (Text.pieces (scriptText (script layout))).length =
      (script layout).length + lineFeedsOf (items layout) := by
  have hwhole : (∀ line ∈ script layout, '\n' ∉ line.text) ↔ NamesStayOnLine layout :=
    forall_mem_script_iff.trans namesStayOnLine_iff.symm
  refine ⟨hwhole, ?_, ?_⟩
  · constructor
    · intro hpieces
      rw [← hwhole]
      intro line hline
      have hmem : line.text ∈ Text.pieces (scriptText (script layout)) :=
        hpieces ▸ List.mem_map_of_mem hline
      exact Text.lineFeed_not_mem_of_mem_pieces hmem
    · exact fun hnames => pieces_scriptText (namesStayOnLine_iff.mp hnames)
  · have hne : (script layout).map ScriptLine.text ≠ [] := by simp [script, preamble]
    rw [scriptText, Text.length_pieces_intercalate hne, count_script, List.length_map]

/-- A layout with one image whose name holds a line feed. -/
def brokenNameLayout : List Element :=
  [{ content := .image "" (some "a\nb"), id := "e1" }]

/-- The line of this image is broken, and its script has a piece more than
lines. -/
theorem line_broken_by_name :
    (∃ line ∈ script brokenNameLayout, line.owner = some "e1" ∧ '\n' ∈ line.text) ∧
    (Text.pieces (scriptText (script brokenNameLayout))).length =
      (script brokenNameLayout).length + 1 := by
  decide

end TicketPress
