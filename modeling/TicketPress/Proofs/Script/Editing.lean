import Mathlib.Data.List.TakeWhile
import Mathlib.Logic.Relation
import TicketPress.Proofs.Script.Places

/-!
# Edits that do not matter

How the lines of a script end, how far they are indented, what is remarked on
them and what stands between them has no part in what is recovered. `Edit` is
one such change to the lines of a script. It leaves the code of the live lines
alone (`Edit.filterMap_liveCode?`), so any number of them leave alone what is
recovered, but for the places the diagnostics give.
-/

namespace TicketPress

open Text

/-! ## The code of an edited line -/

/-- Blanks behind a line do not matter, as they do not in front of it. -/
theorem codePart?_append_blanks {back : List Char} (h : ∀ c ∈ back, isBlank c = true)
    (line : List Char) : codePart? (line ++ back) = codePart? line := by
  rw [← codePart?_trimEnd, trimEnd_append_blanks h, codePart?_trimEnd]

/-- A remark set off by a blank takes nothing from what stands before the remark
of a text, whether or not there was one before it. -/
theorem trimEnd_beforeRemark_append (text note : List Char) :
    trimEnd (beforeRemark (text ++ ' ' :: '/' :: '/' :: note)) = trimEnd (beforeRemark text) := by
  cases hoccurs : occurs remarkMark text with
  | true =>
      obtain ⟨parts, hbreak⟩ := Option.isSome_iff_exists.mp hoccurs
      have hmore : breakOn remarkMark (text ++ ' ' :: '/' :: '/' :: note) =
          some (parts.1, parts.2 ++ ' ' :: '/' :: '/' :: note) :=
        breakOn_append_of_eq_some hbreak (' ' :: '/' :: '/' :: note)
      rw [beforeRemark, hmore, beforeRemark, hbreak]
  | false =>
      have hblank : ∀ c ∈ [' '], isBlank c = true := List.forall_mem_singleton.mpr (by decide)
      have hfirst : occurs remarkMark (text ++ ' ' :: ['/']) = false := by
        have hdivide : occurs remarkMark (text ++ ' ' :: ['/']) =
            (occurs remarkMark text || occurs remarkMark ['/']) :=
          occurs_append_cons_of_not_mem (by decide) text ['/']
        rw [hdivide, hoccurs]
        rfl
      have hcut : beforeRemark (text ++ [' '] ++ '/' :: '/' :: note) = text ++ [' '] :=
        beforeRemark_append (Or.inr ⟨note, rfl⟩) (by simpa [not_occurs_iff] using hfirst)
      rw [List.append_cons, hcut, beforeRemark_of_not_occurs hoccurs, trimEnd_append_blanks hblank]

/-- A remark set off by a blank does not matter, also if there is one before it
or the line ends in a slash. -/
theorem codePart?_append_remark (line note : List Char) :
    codePart? (line ++ ' ' :: '/' :: '/' :: note) = codePart? line := by
  have hcode : trimEnd (beforeRemark (trimStart (line ++ ' ' :: '/' :: '/' :: note))) =
      trimEnd (beforeRemark (trimStart line)) := by
    by_cases hline : trimStart line = []
    · -- Nothing but blanks: the line is a remark now.
      have hblank : ∀ c ∈ line, isBlank c = true := List.dropWhile_eq_nil_iff.mp hline
      have htrim : trimStart (line ++ ' ' :: '/' :: '/' :: note) = '/' :: '/' :: note :=
        List.dropWhile_append_of_pos hblank
      rw [htrim, hline]
      rfl
    · have htrim : trimStart (line ++ ' ' :: '/' :: '/' :: note) =
          trimStart line ++ ' ' :: '/' :: '/' :: note := by
        simp only [trimStart] at hline ⊢
        rw [List.dropWhile_append, if_neg (by simpa using hline)]
      rw [htrim, trimEnd_beforeRemark_append]
  rw [codePart?_eq, hcode, ← codePart?_eq]

/-! ## Idle lines -/

/-- A line that calls nothing: it is blank, or it is a remark, or the printer is
not called in its code. -/
inductive IsIdle : List Char → Prop
  | blank {line : List Char} (h : ∀ c ∈ line, isBlank c = true) : IsIdle line
  | remark {front : List Char} (h : ∀ c ∈ front, isBlank c = true) (note : List Char) :
    IsIdle (front ++ '/' :: '/' :: note)
  | other {line code : List Char} (hcode : codePart? line = some code)
    (hcall : occurs outputCall code = false) : IsIdle line

theorem IsIdle.liveCode?_eq_none {line : List Char} (h : IsIdle line) :
    liveCode? line = none := by
  cases h with
  | blank h =>
      have hnone : codePart? line = none := by
        have hline := codePart?_blanks_append h []
        rw [List.append_nil] at hline
        rw [hline]
        rfl
      rw [liveCode?, hnone]
      rfl
  | remark h note =>
      rw [liveCode?, codePart?_blanks_append h, codePart?_remark]
      rfl
  | other hcode hcall => rw [liveCode?, hcode, Option.filter_some, if_neg (by simp [hcall])]

/-! ## Edits -/

/-- A change to one line: a carriage return before its end, blanks before and
behind it, or a remark. -/
inductive LineEdit : List Char → List Char → Prop
  | carriageReturn (line : List Char) : LineEdit line (line ++ ['\r'])
  | blanks {front back : List Char} (hfront : ∀ c ∈ front, isBlank c = true ∧ c ≠ '\n')
    (hback : ∀ c ∈ back, isBlank c = true ∧ c ≠ '\n') (line : List Char) :
    LineEdit line (front ++ line ++ back)
  | remark {note : List Char} (h : '\n' ∉ note) (line : List Char) :
    LineEdit line (line ++ ' ' :: '/' :: '/' :: ' ' :: note)

/-- A change to the lines of a script: one line is edited, or an idle line is
put in anywhere. -/
inductive Edit : List (List Char) → List (List Char) → Prop
  | line {line edited : List Char} (h : LineEdit line edited) (before after : List (List Char)) :
    Edit (before ++ line :: after) (before ++ edited :: after)
  | insertion {line : List Char} (hwhole : '\n' ∉ line) (hidle : IsIdle line)
    (before after : List (List Char)) :
    Edit (before ++ after) (before ++ line :: after)

theorem LineEdit.liveCode?_eq {line edited : List Char} (h : LineEdit line edited) :
    liveCode? edited = liveCode? line := by
  have hcode : codePart? edited = codePart? line := by
    cases h with
    | carriageReturn =>
        exact codePart?_append_blanks (List.forall_mem_singleton.mpr (by decide)) line
    | blanks hfront hback =>
        rw [codePart?_append_blanks fun c hc => (hback c hc).1,
          codePart?_blanks_append fun c hc => (hfront c hc).1]
    | remark h => exact codePart?_append_remark line _
  rw [liveCode?, hcode, liveCode?]

theorem LineEdit.whole {line edited : List Char} (h : LineEdit line edited)
    (hline : '\n' ∉ line) : '\n' ∉ edited := by
  cases h with
  | carriageReturn => simpa using hline
  | blanks hfront hback =>
      simp only [List.mem_append, not_or]
      exact ⟨⟨fun hmem => (hfront _ hmem).2 rfl, hline⟩, fun hmem => (hback _ hmem).2 rfl⟩
  | remark h => simpa using ⟨hline, h⟩

/-- One edit leaves the code of the live lines alone. -/
theorem Edit.filterMap_liveCode? {lines edited : List (List Char)} (h : Edit lines edited) :
    edited.filterMap liveCode? = lines.filterMap liveCode? := by
  cases h with
  | line h before after =>
      rw [List.filterMap_append, List.filterMap_append, List.filterMap_cons, List.filterMap_cons,
        h.liveCode?_eq]
  | insertion hwhole hidle before after =>
      rw [List.filterMap_append, List.filterMap_append,
        List.filterMap_cons_none hidle.liveCode?_eq_none]

/-- The lines of an edited script are lines: there is one at least, and none
holds a line feed. -/
theorem Edit.whole {lines edited : List (List Char)} (h : Edit lines edited)
    (hlines : ∀ line ∈ lines, '\n' ∉ line) : edited ≠ [] ∧ ∀ line ∈ edited, '\n' ∉ line := by
  cases h with
  | line h before after =>
      refine ⟨by simp, fun other hother => ?_⟩
      rcases List.mem_append.mp hother with hbefore | hafter
      · exact hlines other (by simp [hbefore])
      · rcases List.mem_cons.mp hafter with rfl | hafter
        · exact h.whole (hlines _ (by simp))
        · exact hlines other (by simp [hafter])
  | insertion hwhole hidle before after =>
      refine ⟨by simp, fun other hother => ?_⟩
      rcases List.mem_append.mp hother with hbefore | hafter
      · exact hlines other (by simp [hbefore])
      · rcases List.mem_cons.mp hafter with rfl | hafter
        · exact hwhole
        · exact hlines other (by simp [hafter])

/-- Any number of edits leave the code of the live lines alone, and what comes
out are the lines of a script. -/
theorem edits_keep {script : List Char} {edited : List (List Char)}
    (h : Relation.ReflTransGen Edit (pieces script) edited) :
    edited.filterMap liveCode? = (pieces script).filterMap liveCode? ∧
      pieces (['\n'].intercalate edited) = edited := by
  have hkept : edited.filterMap liveCode? = (pieces script).filterMap liveCode? ∧
      edited ≠ [] ∧ ∀ line ∈ edited, '\n' ∉ line := by
    induction h with
    | refl =>
        exact ⟨rfl, pieces_ne_nil script, fun line hline => lineFeed_not_mem_of_mem_pieces hline⟩
    | tail _ hstep ih =>
        exact ⟨hstep.filterMap_liveCode?.trans ih.1, hstep.whole ih.2.2⟩
  exact ⟨hkept.1, pieces_intercalate hkept.2.1 hkept.2.2⟩

/-! ## What is recovered from live code -/

/-- The diagnostic without its place: that it has one is all that is left of
the span, and the number of the line is gone from the context. -/
def Diagnostic.unplaced (d : Diagnostic) : Diagnostic :=
  { d with
    span := d.span.map fun _ => ⟨0, 0⟩
    context := d.context.map fun context => context.erase "line" }

/-- Without its place the diagnostic about a line is the same on every line. -/
theorem Recognition.map_unplaced_diagnostic? (r : Recognition) (line other : PlacedLine) :
    (r.diagnostic? line).map Diagnostic.unplaced =
      (r.diagnostic? other).map Diagnostic.unplaced := by
  rcases r.diagnostic?_cases with hnone | ⟨code, severity, message, more, hmore, hsome⟩
  · rw [hnone, hnone]
  · have herase : ∀ line : PlacedLine, (line.context more).erase "line" = .ofList more :=
      fun line => Bindings.erase_ofList_cons hmore _
    simp only [hsome, Option.map_some, Diagnostic.unplaced, PlacedLine.diagnostic, herase]

/-- The diagnostics of lines in their places, but for these, are those of their
live code. -/
theorem map_unplaced_placeFrom (number start : Nat) (lines : List (List Char)) :
    ((placeFrom number start lines).filterMap PlacedLine.diagnostic?).map Diagnostic.unplaced =
      (lines.filterMap liveCode?).filterMap fun code =>
        ((recognize code).diagnostic? ⟨1, 0, []⟩).map Diagnostic.unplaced := by
  induction lines generalizing number start with
  | nil => rfl
  | cons text lines ih =>
      rw [placeFrom, List.filterMap_cons, List.filterMap_cons, PlacedLine.diagnostic?]
      cases hlive : liveCode? text with
      | none => exact ih _ _
      | some code =>
          have hplace := (recognize code).map_unplaced_diagnostic? ⟨number, start, text⟩ ⟨1, 0, []⟩
          simp only [Option.map_some, Option.bind_some, List.filterMap_cons, ← hplace]
          cases (recognize code).diagnostic? ⟨number, start, text⟩ with
          | none => exact ih _ _
          | some d =>
              simp only [Option.map_some, List.map_cons]
              exact congrArg (Diagnostic.unplaced d :: ·) (ih _ _)

theorem readings_eq (lines : List (List Char)) :
    readings lines = (lines.filterMap liveCode?).map recognize := by
  rw [readings, List.map_filterMap]

/-- However the lines of a script are edited, the same items are recovered from
it, with the same diagnostics in the same order but for their places. -/
theorem recover_of_edits {script : List Char} {edited : List (List Char)}
    (h : Relation.ReflTransGen Edit (pieces script) edited) :
    (recover (['\n'].intercalate edited)).items = (recover script).items ∧
    (recover (['\n'].intercalate edited)).diagnostics.map Diagnostic.unplaced =
      (recover script).diagnostics.map Diagnostic.unplaced := by
  obtain ⟨hlive, hpieces⟩ := edits_keep h
  have hitems : (recover (['\n'].intercalate edited)).items = (recover script).items := by
    have hrun : recoverItems (['\n'].intercalate edited) = recoverItems script := by
      rw [recoverItems_eq, recoverItems_eq, hpieces, readings_eq, hlive, ← readings_eq]
    exact hrun
  refine ⟨hitems, ?_⟩
  rw [recover_diagnostics, recover_diagnostics, hitems, List.map_append, List.map_append,
    placedLines, placedLines, hpieces, map_unplaced_placeFrom, map_unplaced_placeFrom, hlive]

/-- A feed. -/
def feedLine : List Char := "BinaryOut(0x1B, 0x4A, 30);".toList

/-- A command that lacks its operand and is followed by a slash. -/
def brokenFeedLine : List Char := "BinaryOut(0x1B, 0x4A) /".toList

/-- The script of both. -/
def feedScript : List Char := feedLine ++ '\n' :: brokenFeedLine

/-- The lines of the same script with a carriage return, a remark on a line of
its own that calls the printer, an indentation by a wide blank and a remark
behind the slash. -/
def editedFeedLines : List (List Char) :=
  [feedLine ++ ['\r'], '\t' :: '/' :: '/' :: " BinaryOut(0x1B, 0x40);".toList,
    '\u3000' :: (brokenFeedLine ++ [' ', '/', '/', ' ', '3', '0'])]

/-- The edited feed is recovered like the plain one. -/
theorem recover_editedFeedLines :
    Relation.ReflTransGen Edit (pieces feedScript) editedFeedLines ∧
    (recover (['\n'].intercalate editedFeedLines)).items = (recover feedScript).items ∧
    (recover (['\n'].intercalate editedFeedLines)).diagnostics.map Diagnostic.unplaced =
      (recover feedScript).diagnostics.map Diagnostic.unplaced := by
  have hpieces : pieces feedScript = [feedLine, brokenFeedLine] := by
    rw [feedScript, pieces_append_lineFeed, pieces_of_not_mem (by decide),
      pieces_of_not_mem (by decide)]
    rfl
  have hwide : ∀ c ∈ ['\u3000'], isBlank c = true ∧ c ≠ '\n' :=
    List.forall_mem_singleton.mpr (by decide)
  have htab : ∀ c ∈ ['\t'], isBlank c = true := List.forall_mem_singleton.mpr (by decide)
  have hidle : IsIdle ('\t' :: '/' :: '/' :: " BinaryOut(0x1B, 0x40);".toList) :=
    .remark htab " BinaryOut(0x1B, 0x40);".toList
  have hbroken : Relation.ReflTransGen Edit [feedLine ++ ['\r'], brokenFeedLine]
      [feedLine ++ ['\r'], '\u3000' :: (brokenFeedLine ++ [' ', '/', '/', ' ', '3', '0'])] := by
    refine .head (.line (@LineEdit.remark ['3', '0'] (by decide) _) [_] []) (.single ?_)
    simpa using Edit.line (@LineEdit.blanks _ [] hwide (by simp) _) [feedLine ++ ['\r']] []
  have hedits : Relation.ReflTransGen Edit (pieces feedScript) editedFeedLines := by
    rw [hpieces]
    refine .head (.line (.carriageReturn feedLine) [] [brokenFeedLine]) (hbroken.tail ?_)
    exact .insertion (by decide) hidle [_] [_]
  exact ⟨hedits, recover_of_edits hedits⟩

end TicketPress
