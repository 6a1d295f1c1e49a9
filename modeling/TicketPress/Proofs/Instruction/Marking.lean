import TicketPress.Proofs.Instruction.Literal
import TicketPress.Proofs.Placeholder.Names
import TicketPress.Proofs.Text.Pieces

/-!
# Which literals are interpolated

A text is marked if braces stand in order on one of its lines. A literal asks
this of its body, and a body is a single line: its line feeds are written out.
So braces on different lines of a content, which do not mark the content, make
its literal an interpolated one: `Literal.interpolated_ofContent_iff` does not
ask for lines. The names of a content are not concerned, since a placeholder
stands on one line.
-/

namespace TicketPress

/-- An opening brace stands in the text and a closing one after it. -/
def BracesInOrder (text : List Char) : Prop := ['\x7b', '\x7d'].Sublist text

instance (text : List Char) : Decidable (BracesInOrder text) :=
  inferInstanceAs (Decidable (['\x7b', '\x7d'].Sublist text))

namespace Placeholder

open Text

/-! ## Marked texts -/

theorem markedLine_iff (line : List Char) : markedLine line = true ↔ BracesInOrder line := by
  induction line with
  | nil => decide
  | cons c line ih =>
      by_cases hc : c = '\x7b'
      · subst hc
        rw [BracesInOrder, List.cons_sublist_cons, List.singleton_sublist]
        simp [markedLine]
      · have hskip : markedLine (c :: line) = markedLine line := by
          simp [markedLine, hc]
        rw [hskip, ih, BracesInOrder, BracesInOrder, List.sublist_cons_iff]
        constructor
        · exact Or.inl
        · rintro (h | ⟨rest, hrest, -⟩)
          · exact h
          · exact absurd (List.cons.inj hrest).1.symm hc

theorem marked_iff (text : List Char) :
    marked text = true ↔ ∃ line ∈ lines text, BracesInOrder line := by
  rw [marked, List.any_eq_true]
  simp only [markedLine_iff]

/-- On a single line it makes no difference where the braces stand. -/
theorem marked_of_lineFeed_not_mem {text : List Char} (h : '\n' ∉ text) :
    marked text = true ↔ BracesInOrder text := by
  rw [marked_iff, lines, pieces_of_not_mem h, linesOfPieces]
  by_cases hempty : text = []
  · subst hempty
    decide
  · simp [hempty]

/-- A text with a name has braces in order. -/
theorem bracesInOrder_of_names_ne_nil {text : List Char} (h : names text ≠ []) :
    BracesInOrder text := by
  obtain ⟨name, hname⟩ := List.exists_mem_of_ne_nil _ h
  obtain ⟨-, hstands⟩ := mem_names_iff.mp hname
  have hwritten : BracesInOrder (written name) := by
    rw [BracesInOrder, written, List.cons_sublist_cons, List.singleton_sublist]
    simp
  exact List.Sublist.trans hwritten hstands.sublist

end Placeholder

/-! ## Literals -/

/-- Writing out line feeds leaves the braces as they are. -/
theorem filter_escaped (text : List Char) :
    (escaped text).filter (fun c => !Placeholder.notBrace c) =
      text.filter fun c => !Placeholder.notBrace c := by
  induction text with
  | nil => rfl
  | cons c text ih =>
      by_cases hc : c = '\n'
      · subst hc
        rw [escaped_lineFeed]
        simpa [Placeholder.notBrace] using ih
      · rw [escaped_cons hc, List.filter_cons, List.filter_cons, ih]

/-- Braces in order are found among the braces alone. -/
theorem bracesInOrder_filter_iff (text : List Char) :
    BracesInOrder (text.filter fun c => !Placeholder.notBrace c) ↔ BracesInOrder text :=
  ⟨fun h => List.Sublist.trans h List.filter_sublist,
    fun h => List.Sublist.filter (fun c => !Placeholder.notBrace c) h⟩

theorem Literal.interpolated_ofContent_iff (content : String) :
    (Literal.ofContent content).interpolated = true ↔ BracesInOrder content.toList := by
  have hmarked : (Literal.ofContent content).interpolated =
      Placeholder.marked (escaped content.toList) := rfl
  rw [hmarked, Placeholder.marked_of_lineFeed_not_mem (lineFeed_not_mem_escaped _),
    ← bracesInOrder_filter_iff, filter_escaped, bracesInOrder_filter_iff]

/-- The literal of a content is written as an interpolated one exactly if braces
stand in order in the content, on whatever lines. This agrees with the mark of
the content unless they do so on different lines only, and it holds whenever the
content has a name. -/
theorem interpolated_eq_marked_iff (content : String) :
    ((Literal.ofContent content).text.head? = some '$' ↔ BracesInOrder content.toList) ∧
    ((Literal.ofContent content).interpolated = Placeholder.marked content.toList ↔
      (BracesInOrder content.toList →
        ∃ line ∈ Text.lines content.toList, BracesInOrder line)) ∧
    (Placeholder.names content.toList ≠ [] →
      (Literal.ofContent content).interpolated = true) := by
  have hinterpolated := Literal.interpolated_ofContent_iff content
  refine ⟨?_, ?_, fun hnames => ?_⟩
  · rw [← hinterpolated, Literal.text]
    cases (Literal.ofContent content).interpolated <;> simp [inQuotes]
  · have hinOrder : (∃ line ∈ Text.lines content.toList, BracesInOrder line) →
        BracesInOrder content.toList := fun ⟨_, hline, hbraces⟩ =>
      List.Sublist.trans hbraces (Text.sublist_of_mem_lines hline)
    rw [Bool.eq_iff_iff, hinterpolated, Placeholder.marked_iff]
    exact ⟨Iff.mp, fun h => ⟨h, hinOrder⟩⟩
  · exact hinterpolated.mpr (Placeholder.bracesInOrder_of_names_ne_nil hnames)

/-- Content with an opening brace on one line and a closing one on the next. -/
def bracesApart : String := "\x7bopen\nclose\x7d"

/-- Such content is not marked, but its literal is interpolated. -/
theorem bracesApart_interpolated :
    Placeholder.marked bracesApart.toList = false ∧
    (Literal.ofContent bracesApart).interpolated = true ∧
    (Literal.ofContent bracesApart).text = "$\"\x7bopen\\nclose\x7d\"".toList := by
  decide

end TicketPress
