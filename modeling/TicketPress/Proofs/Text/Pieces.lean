import TicketPress.Proofs.Text.Occurrence
import TicketPress.Proofs.Text.Trimming

/-!
# The pieces of a text

A text is cut at its line feeds. Pieces that hold none come back from their
joined text, and every cut adds a piece. A line is a piece but for its end, so
what stands on it stands in the text. Trimming a text takes blanks off its
last pieces and otherwise nothing, so the trimmed pieces stay the same, up to
empty ones at the end.
-/

namespace TicketPress.Text

theorem pieces_lineFeed (text : List Char) : pieces ('\n' :: text) = [] :: pieces text := by
  simp [pieces, List.splitOn_cons_eq_if_modifyHead]

theorem pieces_cons {c : Char} (h : c ≠ '\n') (text : List Char) :
    pieces (c :: text) = (pieces text).modifyHead (c :: ·) := by
  simp [pieces, List.splitOn_cons_eq_if_modifyHead, h]

theorem pieces_ne_nil (text : List Char) : pieces text ≠ [] := List.splitOn_ne_nil _ _

/-- A character other than a line feed joins the first piece. -/
theorem exists_pieces_cons {c : Char} (h : c ≠ '\n') (text : List Char) :
    ∃ first rest, pieces text = first :: rest ∧ pieces (c :: text) = (c :: first) :: rest := by
  cases hpieces : pieces text with
  | nil => exact absurd hpieces (pieces_ne_nil text)
  | cons first rest => exact ⟨first, rest, rfl, by rw [pieces_cons h, hpieces]; rfl⟩

/-- A text is cut on both sides of a line feed by itself. -/
theorem pieces_append_lineFeed (a b : List Char) :
    pieces (a ++ '\n' :: b) = pieces a ++ pieces b := List.splitOn_append_cons_self a b

/-- A text without line feeds is its only piece. -/
theorem pieces_of_not_mem {text : List Char} (h : '\n' ∉ text) : pieces text = [text] :=
  List.splitOn_eq_singleton h

/-- A text comes back from its pieces. -/
theorem intercalate_pieces (text : List Char) : ['\n'].intercalate (pieces text) = text :=
  List.intercalate_splitOn '\n'

/-- Lines come back from the text that joins them. -/
theorem pieces_intercalate {list : List (List Char)} (hne : list ≠ [])
    (h : ∀ line ∈ list, '\n' ∉ line) : pieces (['\n'].intercalate list) = list :=
  List.splitOn_intercalate '\n' h hne

/-- A piece holds no line feed. -/
theorem lineFeed_not_mem_of_mem_pieces {text piece : List Char} (h : piece ∈ pieces text) :
    '\n' ∉ piece := by
  induction text generalizing piece with
  | nil =>
      obtain rfl : piece = [] := by simpa [pieces] using h
      simp
  | cons c text ih =>
      by_cases hc : c = '\n'
      · subst hc
        rw [pieces_lineFeed, List.mem_cons] at h
        rcases h with rfl | hrest
        · simp
        · exact ih hrest
      · obtain ⟨first, rest, hpieces, hcons⟩ := exists_pieces_cons hc text
        rw [hcons, List.mem_cons] at h
        rcases h with rfl | hrest
        · simpa [Ne.symm hc] using ih (hpieces ▸ List.mem_cons_self ..)
        · exact ih (hpieces ▸ List.mem_cons_of_mem first hrest)

/-- The characters of a piece stand in the text in their order. -/
theorem sublist_of_mem_pieces {text piece : List Char} (h : piece ∈ pieces text) :
    piece.Sublist text := by
  induction text generalizing piece with
  | nil =>
      obtain rfl : piece = [] := by simpa [pieces] using h
      exact List.Sublist.refl []
  | cons c text ih =>
      by_cases hc : c = '\n'
      · subst hc
        rw [pieces_lineFeed, List.mem_cons] at h
        rcases h with rfl | hrest
        · exact List.nil_sublist _
        · exact (ih hrest).cons '\n'
      · obtain ⟨first, rest, hpieces, hcons⟩ := exists_pieces_cons hc text
        rw [hcons, List.mem_cons] at h
        rcases h with rfl | hrest
        · exact (ih (hpieces ▸ List.mem_cons_self ..)).cons_cons c
        · exact (ih (hpieces ▸ List.mem_cons_of_mem first hrest)).cons c

/-! ## Lines -/

theorem chomp_sublist (line : List Char) : (chomp line).Sublist line := by
  rw [chomp]
  split
  · exact List.dropLast_sublist line
  · exact List.Sublist.refl line

/-- A line is a piece, but for a carriage return at its end. -/
theorem exists_of_mem_linesOfPieces {list : List (List Char)} {line : List Char}
    (h : line ∈ linesOfPieces list) : ∃ piece ∈ list, line.Sublist piece := by
  fun_induction linesOfPieces list with
  | case1 => simp at h
  | case2 => simp at h
  | case3 last hlast => exact ⟨last, by simp, by simp_all⟩
  | case4 piece more hmore ih =>
      rcases List.mem_cons.mp h with rfl | hrest
      · exact ⟨piece, by simp, chomp_sublist piece⟩
      · obtain ⟨found, hfound, hline⟩ := ih hrest
        exact ⟨found, List.mem_cons_of_mem piece hfound, hline⟩

/-- The characters of a line stand in the text in their order. -/
theorem sublist_of_mem_lines {text line : List Char} (h : line ∈ lines text) :
    line.Sublist text := by
  obtain ⟨piece, hpiece, hline⟩ := exists_of_mem_linesOfPieces h
  exact hline.trans (sublist_of_mem_pieces hpiece)

theorem chomp_concat (line : List Char) : chomp (line ++ ['\r']) = line := by
  rw [chomp, if_pos List.getLast?_concat, List.dropLast_concat]

theorem chomp_of_getLast?_ne {line : List Char} (h : line.getLast? ≠ some '\r') :
    chomp line = line := if_neg h

/-- A line that ends in no carriage return is read from itself, or from itself
and a carriage return. -/
theorem chomp_eq_iff {line : List Char} (h : line.getLast? ≠ some '\r') (piece : List Char) :
    chomp piece = line ↔ piece = line ∨ piece = line ++ ['\r'] := by
  constructor
  · rintro rfl
    by_cases hreturn : piece.getLast? = some '\r'
    · obtain ⟨front, rfl⟩ := List.getLast?_eq_some_iff.mp hreturn
      exact Or.inr (by rw [chomp_concat])
    · exact Or.inl (chomp_of_getLast?_ne hreturn).symm
  · rintro (rfl | rfl)
    · exact chomp_of_getLast?_ne h
    · exact chomp_concat line

/-- The last piece of a text ends in the last character of the text. -/
theorem getLast?_pieces_concat {c : Char} (h : c ≠ '\n') (text : List Char) :
    ∃ front, (pieces (text ++ [c])).getLast? = some (front ++ [c]) := by
  induction text with
  | nil => exact ⟨[], by rw [List.nil_append, pieces_of_not_mem (by simpa using h.symm)]; rfl⟩
  | cons d text ih =>
      obtain ⟨front, hlast⟩ := ih
      rw [List.cons_append]
      by_cases hd : d = '\n'
      · subst hd
        exact ⟨front, by rw [pieces_lineFeed, List.getLast?_cons, hlast, Option.getD_some]⟩
      · obtain ⟨first, rest, hpieces, hcons⟩ := exists_pieces_cons hd (text ++ [c])
        rw [hpieces] at hlast
        cases rest with
        | nil =>
            obtain rfl : first = front ++ [c] := by simpa using hlast
            exact ⟨d :: front, by rw [hcons]; rfl⟩
        | cons next rest =>
            exact ⟨front, by rw [hcons, ← hlast, List.getLast?_cons_cons, List.getLast?_cons_cons]⟩

theorem linesOfPieces_eq_map_chomp {list : List (List Char)} {front : List Char} {c : Char}
    (h : list.getLast? = some (front ++ [c])) (hc : c ≠ '\r') :
    linesOfPieces list = list.map chomp := by
  induction list with
  | nil => simp at h
  | cons piece list ih =>
      cases list with
      | nil =>
          obtain rfl : piece = front ++ [c] := by simpa using h
          have hkept : chomp (front ++ [c]) = front ++ [c] :=
            chomp_of_getLast?_ne (by simpa using hc)
          rw [List.map_singleton, hkept, linesOfPieces, if_neg (by simp)]
      | cons next list =>
          rw [List.getLast?_cons_cons] at h
          rw [linesOfPieces, ih h]
          · rfl
          · exact List.cons_ne_nil next list

/-- A text that ends in no line end has a line for every piece. -/
theorem lines_concat {c : Char} (hfeed : c ≠ '\n') (hreturn : c ≠ '\r') (text : List Char) :
    lines (text ++ [c]) = (pieces (text ++ [c])).map chomp := by
  obtain ⟨front, hlast⟩ := getLast?_pieces_concat hfeed text
  exact linesOfPieces_eq_map_chomp hlast hreturn

/-! ## Beginnings of a text -/

/-- A beginning of joined lines has whole lines as its pieces and last a
beginning of the line after them. -/
theorem pieces_of_prefix_intercalate {lines : List (List Char)} (hne : lines ≠ [])
    (h : ∀ line ∈ lines, '\n' ∉ line) {cut : List Char}
    (hcut : cut <+: ['\n'].intercalate lines) :
    ∃ whole line more last, lines = whole ++ line :: more ∧ last <+: line ∧
      pieces cut = whole ++ [last] := by
  have hstop {line : List Char} (hline : '\n' ∉ line) {cut : List Char} (hcut : cut <+: line) :
      pieces cut = [cut] := pieces_of_not_mem fun hmem => hline (hcut.subset hmem)
  induction lines generalizing cut with
  | nil => exact absurd rfl hne
  | cons first rest ih =>
      have hfirst : '\n' ∉ first := h first (by simp)
      cases rest with
      | nil =>
          rw [List.intercalate_singleton] at hcut
          exact ⟨[], first, [], cut, rfl, hcut, hstop hfirst hcut⟩
      | cons next rest =>
          rw [List.intercalate_cons_cons, List.append_assoc] at hcut
          rcases prefix_append_cases hcut with ⟨tail, htail, rfl⟩ | ⟨hshort, -⟩
          · rcases List.prefix_cons_iff.mp htail with rfl | ⟨tail, rfl, hafter⟩
            · rw [List.append_nil]
              exact ⟨[], first, next :: rest, first, rfl, List.prefix_rfl,
                hstop hfirst List.prefix_rfl⟩
            · obtain ⟨whole, line, more, last, hlines, hlast, hpieces⟩ :=
                ih (by simp) (fun line hmem => h line (List.mem_cons_of_mem first hmem)) hafter
              refine ⟨first :: whole, line, more, last, by rw [hlines]; rfl, hlast, ?_⟩
              rw [pieces_append_lineFeed, pieces_of_not_mem hfirst, hpieces]
              rfl
          · exact ⟨[], first, next :: rest, cut, rfl, hshort, hstop hfirst hshort⟩

/-! ## How many pieces there are -/

/-- A text has one piece more than line feeds. -/
theorem length_pieces (text : List Char) : (pieces text).length = text.count '\n' + 1 := by
  induction text with
  | nil => rfl
  | cons c text ih =>
      by_cases hc : c = '\n'
      · subst hc
        rw [pieces_lineFeed, List.length_cons, ih, List.count_cons_self]
      · rw [pieces_cons hc, List.length_modifyHead, ih, List.count_cons_of_ne hc]

/-- Lines that hold line feeds of their own come back as that many pieces
more. -/
theorem length_pieces_intercalate {list : List (List Char)} (hne : list ≠ []) :
    (pieces (['\n'].intercalate list)).length = list.length + list.flatten.count '\n' := by
  cases list with
  | nil => exact absurd rfl hne
  | cons first rest =>
      induction rest generalizing first with
      | nil =>
          rw [List.intercalate_singleton, length_pieces, List.flatten_singleton,
            List.length_singleton, Nat.add_comm]
      | cons next rest ih =>
          have hrest := ih next (by simp)
          rw [length_pieces] at hrest ⊢
          rw [List.intercalate_cons_cons, List.count_append, List.count_append,
            List.count_singleton_self, List.flatten_cons, List.count_append, List.length_cons]
          omega

/-! ## Trimmed pieces -/

/-- How a character in front changes a trimmed text. -/
theorem map_trimEnd_modifyHead (c : Char) (list : List (List Char)) :
    (list.modifyHead (c :: ·)).map trimEnd =
      (list.map trimEnd).modifyHead fun line =>
        if line = [] ∧ isBlank c = true then [] else c :: line := by
  cases list with
  | nil => rfl
  | cons line list => simp [trimEnd_cons]

/-- The pieces of blanks are trimmed away, and there is one at least. -/
theorem map_trimEnd_pieces_blanks {blanks : List Char} (h : ∀ c ∈ blanks, isBlank c = true) :
    ∃ k, (pieces blanks).map trimEnd = List.replicate (k + 1) [] := by
  induction blanks with
  | nil => exact ⟨0, rfl⟩
  | cons c blanks ih =>
      obtain ⟨k, hk⟩ := ih fun d hd => h d (by simp [hd])
      by_cases hc : c = '\n'
      · subst hc
        refine ⟨k + 1, ?_⟩
        rw [pieces_lineFeed, List.map_cons, hk]
        rfl
      · refine ⟨k, ?_⟩
        rw [pieces_cons hc, map_trimEnd_modifyHead, hk, List.replicate_succ,
          List.modifyHead_cons, if_pos ⟨rfl, h c (by simp)⟩]

/-- Blanks at the end of a text leave its trimmed pieces alone, and add empty
ones after them. -/
theorem map_trimEnd_pieces_append {blanks : List Char} (h : ∀ c ∈ blanks, isBlank c = true)
    (text : List Char) : ∃ k,
      (pieces (text ++ blanks)).map trimEnd =
        (pieces text).map trimEnd ++ List.replicate k [] := by
  induction text with
  | nil =>
      obtain ⟨k, hk⟩ := map_trimEnd_pieces_blanks h
      refine ⟨k, ?_⟩
      rw [List.nil_append, hk]
      rfl
  | cons c text ih =>
      obtain ⟨k, hk⟩ := ih
      refine ⟨k, ?_⟩
      by_cases hc : c = '\n'
      · subst hc
        rw [List.cons_append, pieces_lineFeed, pieces_lineFeed, List.map_cons, hk]
        rfl
      · rw [List.cons_append, pieces_cons hc, pieces_cons hc, map_trimEnd_modifyHead, hk,
          map_trimEnd_modifyHead]
        cases hpieces : pieces text with
        | nil => exact absurd hpieces (pieces_ne_nil text)
        | cons first rest => simp

end TicketPress.Text
