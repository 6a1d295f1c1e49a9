import TicketPress.CommandLine.Run
import TicketPress.Proofs.Layout.Lines
import TicketPress.Proofs.Text.Replacement

/-!
# Line ends of scripts

A script may come with the line ends of either kind and with blanks behind it.
Neither matters for what is recovered, since a carriage return at the end of a
line is a blank. The text of a written script has plain line ends and no blanks
behind it, so it is what is left of all these forms.

Line ends are made plain once: of two carriage returns before a line feed one
is left (`not_infix_plainLineEnds`).
-/

namespace TicketPress

open CommandLine (plainLineEnds)

/-! ## Plain line ends -/

@[simp] theorem plainLineEnds_nil : plainLineEnds [] = [] := rfl

theorem plainLineEnds_pair (text : List Char) :
    plainLineEnds ('\r' :: '\n' :: text) = '\n' :: plainLineEnds text :=
  Text.replaceAll_pair '\r' '\n' ['\n'] text

theorem plainLineEnds_cons {c : Char} {text : List Char}
    (h : ¬ (c = '\r' ∧ text.head? = some '\n')) :
    plainLineEnds (c :: text) = c :: plainLineEnds text :=
  Text.replaceAll_pair_of_not h ['\n']

/-- Making line ends plain takes a blank off the end of some pieces. -/
theorem map_trimEnd_pieces_plainLineEnds (text : List Char) :
    (Text.pieces (plainLineEnds text)).map Text.trimEnd =
      (Text.pieces text).map Text.trimEnd := by
  have hfeed : ∀ a b : List Char,
      (Text.pieces a).map Text.trimEnd = (Text.pieces b).map Text.trimEnd →
      (Text.pieces ('\n' :: a)).map Text.trimEnd = (Text.pieces ('\n' :: b)).map Text.trimEnd := by
    intro a b h
    rw [Text.pieces_lineFeed, Text.pieces_lineFeed, List.map_cons, List.map_cons, h]
  induction text using Text.pair_induction '\r' '\n' with
  | nil => rfl
  | pair text ih =>
      have hreturn : Text.trimEnd ['\r'] = [] := by decide
      rw [plainLineEnds_pair, Text.pieces_cons (c := '\r') (by decide), Text.pieces_lineFeed,
        Text.pieces_lineFeed, List.modifyHead_cons, List.map_cons, List.map_cons, ih, hreturn]
      rfl
  | char c text hpair ih =>
      rw [plainLineEnds_cons hpair]
      by_cases hc : c = '\n'
      · subst hc
        exact hfeed _ _ ih
      · rw [Text.pieces_cons hc, Text.pieces_cons hc, Text.map_trimEnd_modifyHead, ih,
          Text.map_trimEnd_modifyHead]

/-- Recovery is blind to the kind of line ends and to blanks at the end. -/
theorem recoverItems_trimEnd_plainLineEnds (text : List Char) :
    recoverItems (Text.trimEnd (plainLineEnds text)) = recoverItems text := by
  rw [recoverItems_eq, readings_pieces_trimEnd, ← readings_map_trimEnd,
    map_trimEnd_pieces_plainLineEnds, readings_map_trimEnd, ← recoverItems_eq]

/-! ## Carriage returns -/

/-- A text with a carriage return before each line feed. -/
def withCarriageReturns (text : List Char) : List Char :=
  Text.replaceAll ['\n'] ['\r', '\n'] text

theorem withCarriageReturns_lineFeed (text : List Char) :
    withCarriageReturns ('\n' :: text) = '\r' :: '\n' :: withCarriageReturns text :=
  Text.replaceAll_singleton_self '\n' ['\r', '\n'] text

theorem withCarriageReturns_cons {c : Char} (h : c ≠ '\n') (text : List Char) :
    withCarriageReturns (c :: text) = c :: withCarriageReturns text :=
  Text.replaceAll_singleton_of_ne h ['\r', '\n'] text

theorem head?_withCarriageReturns_ne (text : List Char) :
    (withCarriageReturns text).head? ≠ some '\n' := by
  cases text with
  | nil => simp [withCarriageReturns, Text.replaceAll, Text.replaceFrom]
  | cons c text =>
      by_cases hc : c = '\n'
      · subst hc
        simp [withCarriageReturns_lineFeed]
      · simp [withCarriageReturns_cons hc, hc]

@[simp] theorem plainLineEnds_withCarriageReturns (text : List Char) :
    plainLineEnds (withCarriageReturns text) = text := by
  induction text with
  | nil => rfl
  | cons c text ih =>
      by_cases hc : c = '\n'
      · subst hc
        rw [withCarriageReturns_lineFeed, plainLineEnds_pair, ih]
      · rw [withCarriageReturns_cons hc,
          plainLineEnds_cons fun hpair => head?_withCarriageReturns_ne text hpair.2, ih]

/-! ## Ends of written lines -/

/-- A line of an instruction ends in a character that is no blank. -/
theorem Instruction.getLast?_line (i : Instruction) :
    ∃ c, i.line.getLast? = some c ∧ Text.isBlank c = false := by
  have hstatement : i.statement.getLast? = some ';' := by
    by_cases h : i = .selectCharset
    · subst h
      rfl
    · rw [statement_eq h, laidOut_written, outputText, List.getLast?_concat]
  have hremark : (i.remark.getLast?.all fun c => !Text.isBlank c) = true := by
    cases i with
    | setAlignment align => cases align <;> rfl
    | setBold bold => cases bold <;> rfl
    | setFontSize size => cases size <;> rfl
    | _ => rfl
  rw [line, List.getLast?_append, hstatement]
  cases hlast : i.remark.getLast? with
  | none => exact ⟨';', rfl, by decide⟩
  | some c => exact ⟨c, rfl, by simpa [hlast] using hremark⟩

/-- A line that does not end in a carriage return keeps plain line ends plain. -/
theorem plainLineEnds_append {line rest : List Char} (h : '\n' ∉ line)
    (hend : line.getLast? ≠ some '\r' ∨ rest.head? ≠ some '\n') :
    plainLineEnds (line ++ rest) = line ++ plainLineEnds rest := by
  induction line with
  | nil => rfl
  | cons c line ih =>
      obtain ⟨-, hline⟩ : '\n' ≠ c ∧ '\n' ∉ line := by simpa using h
      cases line with
      | nil =>
          have hpair : ¬ (c = '\r' ∧ rest.head? = some '\n') := by
            rintro ⟨rfl, hhead⟩
            rcases hend with hlast | hrest
            · exact hlast rfl
            · exact hrest hhead
          exact plainLineEnds_cons hpair
      | cons d line =>
          have hpair : ¬ (c = '\r' ∧ (d :: line ++ rest).head? = some '\n') := by
            rintro ⟨-, hhead⟩
            obtain rfl : d = '\n' := by simpa using hhead
            exact hline (by simp)
          rw [List.cons_append, plainLineEnds_cons hpair, ih hline (by simpa using hend)]
          rfl

theorem plainLineEnds_intercalate {list : List (List Char)}
    (h : ∀ line ∈ list, '\n' ∉ line ∧ line.getLast? ≠ some '\r') :
    plainLineEnds (['\n'].intercalate list) = ['\n'].intercalate list := by
  induction list with
  | nil => rfl
  | cons line list ih =>
      obtain ⟨hfeed, hlast⟩ := h line (by simp)
      cases list with
      | nil =>
          have hline : plainLineEnds (line ++ []) = line ++ plainLineEnds [] :=
            plainLineEnds_append hfeed (Or.inl hlast)
          simpa using hline
      | cons next list =>
          have hrest := ih fun other hother => h other (by simp [List.mem_cons.mp hother])
          rw [List.intercalate_cons_cons, List.append_assoc,
            plainLineEnds_append hfeed (Or.inl hlast), List.singleton_append,
            plainLineEnds_cons (by simp), hrest]

/-- A line gives up a carriage return before its line feed. -/
theorem plainLineEnds_line {line : List Char} (h : '\n' ∉ line) (rest : List Char) :
    plainLineEnds (line ++ '\n' :: rest) = Text.chomp line ++ '\n' :: plainLineEnds rest := by
  by_cases hreturn : line.getLast? = some '\r'
  · obtain ⟨front, rfl⟩ := List.getLast?_eq_some_iff.mp hreturn
    have hfront : '\n' ∉ front := fun hmem => h (by simp [hmem])
    rw [Text.chomp_concat, List.append_assoc, List.singleton_append,
      plainLineEnds_append hfront (Or.inr (by simp)), plainLineEnds_pair]
  · rw [Text.chomp_of_getLast?_ne hreturn, plainLineEnds_append h (Or.inl hreturn),
      plainLineEnds_cons (by simp)]

/-- Making line ends plain takes a carriage return off the end of every piece
before a line feed. -/
theorem pieces_plainLineEnds_intercalate {list : List (List Char)} {front : List Char} {c : Char}
    (hlines : ∀ line ∈ list, '\n' ∉ line) (hlast : list.getLast? = some (front ++ [c]))
    (hc : c ≠ '\r') :
    Text.pieces (plainLineEnds (['\n'].intercalate list)) = list.map Text.chomp := by
  induction list with
  | nil => simp at hlast
  | cons line list ih =>
      have hline : '\n' ∉ line := hlines line (by simp)
      cases list with
      | nil =>
          obtain rfl : line = front ++ [c] := by simpa using hlast
          have hend : (front ++ [c]).getLast? ≠ some '\r' := by simpa using hc
          rw [plainLineEnds_intercalate fun other hother => ?_, List.intercalate_singleton,
            Text.pieces_of_not_mem hline, List.map_singleton, Text.chomp_of_getLast?_ne hend]
          obtain rfl : other = front ++ [c] := by simpa using hother
          exact ⟨hline, hend⟩
      | cons next list =>
          have hchomp : '\n' ∉ Text.chomp line := fun hmem =>
            hline ((Text.chomp_sublist line).subset hmem)
          rw [List.getLast?_cons_cons] at hlast
          rw [List.intercalate_cons_cons, List.append_assoc, List.singleton_append,
            plainLineEnds_line hline, Text.pieces_append_lineFeed, Text.pieces_of_not_mem hchomp,
            ih (fun other hother => hlines other (List.mem_cons_of_mem line hother)) hlast]
          rfl

theorem map_chomp_pieces {c : Char} (hfeed : c ≠ '\n') (hreturn : c ≠ '\r') (text : List Char) :
    (Text.pieces (text ++ [c])).map Text.chomp =
      Text.pieces (plainLineEnds (text ++ [c])) := by
  obtain ⟨front, hlast⟩ := Text.getLast?_pieces_concat hfeed text
  have hpieces := pieces_plainLineEnds_intercalate
    (fun _ hline => Text.lineFeed_not_mem_of_mem_pieces hline) hlast hreturn
  rw [← hpieces, Text.intercalate_pieces]

/-! ## Stray carriage returns -/

/-- A text in which no carriage return stands before a line feed has plain line
ends. -/
theorem plainLineEnds_of_not_infix {text : List Char} (h : ¬ ['\r', '\n'] <:+: text) :
    plainLineEnds text = text := by
  induction text with
  | nil => rfl
  | cons c text ih =>
      rw [List.infix_cons_iff, not_or, Text.pair_prefix_cons_iff] at h
      rw [plainLineEnds_cons h.1, ih h.2]

/-- What begins a text with plain line ends began the text before, or a
carriage return was taken from before it. -/
theorem head?_of_plainLineEnds {text : List Char} (h : (plainLineEnds text).head? = some '\n') :
    text.head? = some '\n' ∨ ['\r', '\n'] <+: text := by
  cases text with
  | nil => simp at h
  | cons c text =>
      by_cases hpair : c = '\r' ∧ text.head? = some '\n'
      · exact Or.inr (Text.pair_prefix_cons_iff.mpr hpair)
      · rw [plainLineEnds_cons hpair] at h
        exact Or.inl h

/-- Only a second carriage return before a line feed is left when line ends are
made plain. -/
theorem not_infix_plainLineEnds {text : List Char} (h : ¬ ['\r', '\r', '\n'] <:+: text) :
    ¬ ['\r', '\n'] <:+: plainLineEnds text := by
  induction text using Text.pair_induction '\r' '\n' with
  | nil => simp
  | pair text ih =>
      have hrest := ih fun hpart => h (hpart.trans ⟨['\r', '\n'], [], by simp⟩)
      rw [plainLineEnds_pair, List.infix_cons_iff, not_or]
      exact ⟨by simp, hrest⟩
  | char c text hpair ih =>
      have hrest := ih fun hpart => h (List.infix_cons hpart)
      rw [plainLineEnds_cons hpair, List.infix_cons_iff, not_or, Text.pair_prefix_cons_iff]
      refine ⟨?_, hrest⟩
      rintro ⟨rfl, hhead⟩
      rcases head?_of_plainLineEnds hhead with hfeed | hreturn
      · exact hpair ⟨rfl, hfeed⟩
      · exact h (List.prefix_cons_inj '\r' |>.mpr hreturn).isInfix

/-! ## Written scripts -/

/-- No line of a script ends in a carriage return. -/
theorem getLast?_ne_of_mem_script {layout : List Element} {line : List Char}
    (h : line ∈ (script layout).map ScriptLine.text) : line.getLast? ≠ some '\r' := by
  rcases cases_of_mem_script h with hnil | ⟨i, hi, -⟩
  · simp [hnil]
  · obtain ⟨c, hc, hblank⟩ := i.getLast?_line
    rw [hi, hc]
    intro hreturn
    obtain rfl := Option.some.inj hreturn
    exact absurd hblank (by decide)

/-- The text of a written script has plain line ends. -/
theorem plainLineEnds_scriptText {layout : List Element}
    (h : ∀ item ∈ items layout, item.lineFeeds = 0) :
    plainLineEnds (scriptText (script layout)) = scriptText (script layout) := by
  apply plainLineEnds_intercalate
  intro text htext
  obtain ⟨line, hline, rfl⟩ := List.mem_map.mp htext
  exact ⟨forall_mem_script_iff.mpr h line hline, getLast?_ne_of_mem_script htext⟩

theorem exists_intercalate_concat (list : List (List Char)) (last : List Char) :
    ∃ front, ['\n'].intercalate (list ++ [last]) = front ++ last := by
  induction list with
  | nil => exact ⟨[], by simp⟩
  | cons line list ih =>
      obtain ⟨front, hfront⟩ := ih
      refine ⟨line ++ ['\n'] ++ front, ?_⟩
      rw [List.cons_append, List.intercalate_cons_of_ne_nil (by simp), hfront,
        List.append_assoc, List.append_assoc, List.append_assoc]

/-- The text of a written script has no blanks behind it. -/
theorem trimEnd_scriptText (layout : List Element) :
    Text.trimEnd (scriptText (script layout)) = scriptText (script layout) := by
  obtain ⟨front, hfront⟩ : ∃ front, scriptText (script layout) =
      front ++ (Instruction.feedAndCut trailerDots).line := by
    have hlines : (script layout).map ScriptLine.text =
        (preamble.map ScriptLine.text ++
          ((blocks .unplaced (items layout)).flatten.map Instruction.line ++ [[]])) ++
        [(Instruction.feedAndCut trailerDots).line] := by
      rw [map_text_script]
      simp [trailer, frameLine]
    rw [scriptText, hlines]
    exact exists_intercalate_concat _ _
  obtain ⟨c, hc, hblank⟩ := (Instruction.feedAndCut trailerDots).getLast?_line
  obtain ⟨line, hline⟩ := List.getLast?_eq_some_iff.mp hc
  rw [hfront, hline, ← List.append_assoc, Text.trimEnd_concat hblank]

end TicketPress
