import TicketPress.Proofs.Text.Occurrence
import TicketPress.Proofs.Text.Trimming
import TicketPress.Script.Recovery

/-!
# The code of a line

The code of a line is what is left of it without its remark and without the
blanks around. `codePart?_eq` takes these away one after the other, each from
what the one before has left, and `codePart?_eq_some_iff_isCodeOf` says of the
line as a whole where the code stands in it. For a statement with a remark
behind it the code is the statement itself, and a beginning of the line that
ends in no slash is kept whatever comes after it.
-/

namespace TicketPress

open Text

/-! ## Remarks -/

/-- What stands before the remark of a text, or all of it if it has none. -/
def beforeRemark (text : List Char) : List Char :=
  match breakOn remarkMark text with
  | some (before, _) => before
  | none => text

theorem beforeRemark_of_not_occurs {text : List Char} (h : occurs remarkMark text = false) :
    beforeRemark text = text := by
  have hnone : breakOn remarkMark text = none := by simpa [occurs] using h
  rw [beforeRemark, hnone]

/-- A text is cut where no mark of a remark has begun before and one stands, or
at its end. -/
theorem beforeRemark_append {before remark : List Char}
    (hremark : remark = [] ∨ remarkMark <+: remark)
    (hfirst : ¬ remarkMark <:+: before ++ remark.take 1) :
    beforeRemark (before ++ remark) = before := by
  rcases hremark with rfl | ⟨note, rfl⟩
  · rw [List.append_nil]
    exact beforeRemark_of_not_occurs (by simpa [not_occurs_iff] using hfirst)
  · have hbreak : breakOn remarkMark (before ++ (remarkMark ++ note)) = some (before, note) :=
      breakOn_eq_some_iff.mpr ⟨rfl, not_occurs_iff.mpr hfirst⟩
    rw [beforeRemark, hbreak]

theorem exists_eq_beforeRemark_append (text : List Char) :
    ∃ remark, text = beforeRemark text ++ remark ∧ (remark = [] ∨ remarkMark <+: remark) ∧
      ¬ remarkMark <:+: beforeRemark text ++ remark.take 1 := by
  cases hbreak : breakOn remarkMark text with
  | none =>
      have hnone : ¬ remarkMark <:+: text := by
        rw [← not_occurs_iff, occurs, hbreak]
        rfl
      exact ⟨[], by simp [beforeRemark, hbreak], Or.inl rfl, by simpa [beforeRemark, hbreak]⟩
  | some parts =>
      obtain ⟨htext, hfirst⟩ := breakOn_eq_some_iff.mp hbreak
      refine ⟨remarkMark ++ parts.2, ?_, Or.inr (List.prefix_append _ _), ?_⟩
      · rwa [beforeRemark, hbreak]
      · rw [beforeRemark, hbreak]
        exact not_occurs_iff.mp hfirst

theorem slash_not_mem_of_blanks {blanks : List Char} (h : ∀ c ∈ blanks, isBlank c = true) :
    '/' ∉ blanks :=
  fun hmem => absurd (h '/' hmem) (by decide)

/-- Blanks do not start a remark, and none goes on with them. -/
theorem not_occurs_remarkMark_append {blanks : List Char} (hblanks : ∀ c ∈ blanks, isBlank c = true)
    {text : List Char} (h : occurs remarkMark text = false) :
    occurs remarkMark (text ++ blanks) = false := by
  cases blanks with
  | nil => rwa [List.append_nil]
  | cons b blanks =>
      obtain ⟨hb, hrest⟩ : '/' ≠ b ∧ '/' ∉ blanks := by
        simpa using slash_not_mem_of_blanks hblanks
      have hdivide : occurs remarkMark (text ++ b :: blanks) =
          (occurs remarkMark text || occurs remarkMark blanks) :=
        occurs_append_cons_of_not_mem (by simpa using hb.symm) text blanks
      have hend : occurs remarkMark (blanks ++ []) = occurs remarkMark [] :=
        occurs_append_of_not_mem hrest []
      rw [List.append_nil] at hend
      rw [hdivide, h, hend]
      rfl

/-- The end of a line may be trimmed after its remark is gone. -/
theorem trimEnd_beforeRemark_trimEnd (text : List Char) :
    trimEnd (beforeRemark (trimEnd text)) = trimEnd (beforeRemark text) := by
  obtain ⟨blanks, hblanks, htext⟩ := exists_eq_trimEnd_append text
  cases hoccurs : occurs remarkMark (trimEnd text) with
  | false =>
      have hnone : occurs remarkMark text = false := by
        rw [htext]
        exact not_occurs_remarkMark_append hblanks hoccurs
      rw [beforeRemark_of_not_occurs hoccurs, beforeRemark_of_not_occurs hnone, trimEnd_trimEnd]
  | true =>
      obtain ⟨parts, hbreak⟩ := Option.isSome_iff_exists.mp hoccurs
      have hmore : breakOn remarkMark (trimEnd text ++ blanks) =
          some (parts.1, parts.2 ++ blanks) := breakOn_append_of_eq_some hbreak blanks
      rw [← htext] at hmore
      rw [beforeRemark, hbreak, beforeRemark, hmore]

/-! ## The code of a line -/

/-- The code of a line in one piece: the blanks before it go first, then the
remark, then the blanks behind what is left. -/
theorem codePart?_eq (line : List Char) :
    codePart? line = if trimEnd (beforeRemark (trimStart line)) = [] then none
      else some (trimEnd (beforeRemark (trimStart line))) := by
  have hcode : (match breakOn remarkMark (trim line) with
      | some (before, _) => trimEnd before
      | none => trim line) = trimEnd (beforeRemark (trimStart line)) := by
    rw [← trimEnd_beforeRemark_trimEnd, beforeRemark, trim]
    split
    · rfl
    · exact (trimEnd_trimEnd _).symm
  exact congrArg (fun code => if code = [] then none else some code) hcode

theorem codePart?_eq_some_iff {line code : List Char} :
    codePart? line = some code ↔ code ≠ [] ∧ trimEnd (beforeRemark (trimStart line)) = code := by
  rw [codePart?_eq, Option.ite_none_left_eq_some, Option.some.injEq]
  constructor
  · rintro ⟨hne, rfl⟩
    exact ⟨hne, rfl⟩
  · rintro ⟨hne, rfl⟩
    exact ⟨hne, rfl⟩

@[simp] theorem codePart?_trimEnd (line : List Char) :
    codePart? (trimEnd line) = codePart? line := by
  simp only [codePart?, trim_trimEnd]

theorem codePart?_remark (note : List Char) : codePart? ('/' :: '/' :: note) = none := by
  rw [codePart?_eq]
  rfl

/-- Blanks in front of a line do not matter. -/
theorem codePart?_blanks_append {front : List Char} (h : ∀ c ∈ front, isBlank c = true)
    (line : List Char) : codePart? (front ++ line) = codePart? line := by
  have htrim : trimStart (front ++ line) = trimStart line := List.dropWhile_append_of_pos h
  rw [codePart?_eq, htrim, ← codePart?_eq]

/-- Where the code stands in its line: blanks are all that is between it and the
start of the line on one side and the remark, or the end of the line, on the
other. At its own ends it has no blank, and no mark of a remark begins before
the remark. -/
structure IsCodeOf (line code : List Char) : Prop where
  starts : ∃ c ∈ code.head?, isBlank c = false
  ends : ∃ c ∈ code.getLast?, isBlank c = false
  placed : ∃ front back remark, line = front ++ (code ++ back ++ remark) ∧
    (∀ c ∈ front, isBlank c = true) ∧ (∀ c ∈ back, isBlank c = true) ∧
    (remark = [] ∨ remarkMark <+: remark) ∧ ¬ remarkMark <:+: code ++ back ++ remark.take 1

theorem IsCodeOf.codePart?_eq {line code : List Char} (h : IsCodeOf line code) :
    codePart? line = some code := by
  obtain ⟨⟨c, hc, hstart⟩, ⟨d, hd, hend⟩, front, back, remark, rfl, hfront, hback, hremark,
    hfirst⟩ := h
  obtain ⟨rest, rfl⟩ := List.head?_eq_some_iff.mp hc
  obtain ⟨middle, hmiddle⟩ := List.getLast?_eq_some_iff.mp hd
  have htrim : trimEnd (c :: rest) = c :: rest := by
    rw [hmiddle, trimEnd_concat hend]
  rw [codePart?_blanks_append hfront, codePart?_eq_some_iff]
  refine ⟨List.cons_ne_nil c rest, ?_⟩
  rw [List.cons_append, List.cons_append, trimStart_cons hstart, ← List.cons_append,
    ← List.cons_append, beforeRemark_append hremark hfirst, trimEnd_append_blanks hback, htrim]

theorem isCodeOf_of_codePart? {line code : List Char} (h : codePart? line = some code) :
    IsCodeOf line code := by
  obtain ⟨hne, hcode⟩ := codePart?_eq_some_iff.mp h
  obtain ⟨front, hfront, hline⟩ := exists_eq_append_trimStart line
  obtain ⟨remark, htext, hremark, hfirst⟩ := exists_eq_beforeRemark_append (trimStart line)
  obtain ⟨back, hback, hbefore⟩ := exists_eq_trimEnd_append (beforeRemark (trimStart line))
  rw [hcode] at hbefore
  rw [hbefore] at htext hfirst
  obtain ⟨middle, d, hmiddle, hend⟩ :=
    exists_concat_of_trimEnd_eq (by rw [← hcode, trimEnd_trimEnd] : trimEnd code = code) hne
  refine ⟨?_, ⟨d, by simp [hmiddle], hend⟩, front, back, remark, ?_, hfront, hback, hremark,
    hfirst⟩
  · obtain ⟨c, rest, rfl⟩ := List.exists_cons_of_ne_nil hne
    exact ⟨c, rfl, isBlank_of_head?_trimStart (by rw [htext]; rfl)⟩
  · rwa [← htext]

/-- The code of a line is the run that stands in it as code does. -/
theorem codePart?_eq_some_iff_isCodeOf {line code : List Char} :
    codePart? line = some code ↔ IsCodeOf line code :=
  ⟨isCodeOf_of_codePart?, IsCodeOf.codePart?_eq⟩

/-- Of three slashes the first two are the mark of the remark. -/
example : codePart? " a / b ///c".toList = some "a / b".toList := by decide

theorem codePart?_isInfix {line code : List Char} (h : codePart? line = some code) :
    code <:+: line := by
  obtain ⟨front, back, remark, rfl, -⟩ := (isCodeOf_of_codePart? h).placed
  exact ⟨front, back ++ remark, by simp⟩

/-- The code of a line holds no mark of a remark. -/
theorem not_occurs_remarkMark {line code : List Char} (h : codePart? line = some code) :
    occurs remarkMark code = false := by
  obtain ⟨_, back, remark, -, -, -, -, hfirst⟩ := (isCodeOf_of_codePart? h).placed
  rw [List.append_assoc] at hfirst
  exact not_occurs_iff.mpr fun hin => hfirst (hin.trans (List.prefix_append code _).isInfix)

/-! ## Statements -/

/-- Of a line without a remark only the blanks at its ends are no code. -/
theorem codePart?_of_not_occurs {c : Char} {line : List Char} (hc : isBlank c = false)
    (h : occurs remarkMark (c :: line) = false) :
    codePart? (c :: line) = some (trimEnd (c :: line)) := by
  rw [codePart?_eq_some_iff, trimStart_cons hc, beforeRemark_of_not_occurs h]
  exact ⟨by rw [trimEnd_cons, if_neg (by simp [hc])]; simp, rfl⟩

/-- A statement without a remark is its own code. -/
theorem codePart?_of_statement {c d : Char} {middle : List Char} (hc : isBlank c = false)
    (hd : isBlank d = false) (h : occurs remarkMark (c :: middle ++ [d]) = false) :
    codePart? (c :: middle ++ [d]) = some (c :: middle ++ [d]) := by
  have hcode : codePart? (c :: middle ++ [d]) = some (trimEnd (c :: middle ++ [d])) :=
    codePart?_of_not_occurs hc h
  rwa [trimEnd_concat hd] at hcode

/-- Behind a statement without a remark, blanks and one slash make none yet. -/
theorem not_occurs_append_blanks {d : Char} (hslash : d ≠ '/') {blanks : List Char}
    (hblanks : ∀ b ∈ blanks, isBlank b = true) {front : List Char}
    (h : occurs remarkMark (front ++ [d]) = false) :
    occurs remarkMark (front ++ d :: (blanks ++ ['/'])) = false := by
  have hdivide : ∀ before after : List Char, occurs remarkMark (before ++ d :: after) =
      (occurs remarkMark before || occurs remarkMark after) :=
    occurs_append_cons_of_not_mem (by simpa using hslash)
  have hend : occurs remarkMark (blanks ++ ['/']) = false := by
    have hskip : occurs remarkMark (blanks ++ ['/']) = occurs remarkMark ['/'] :=
      occurs_append_of_not_mem (slash_not_mem_of_blanks hblanks) ['/']
    exact hskip.trans (by decide)
  rw [hdivide, Bool.or_eq_false_iff] at h
  rw [hdivide, h.1, hend]
  rfl

/-- A remark behind a statement, with blanks before it, is no part of the code. -/
theorem codePart?_of_remark {c d : Char} {middle : List Char} (hc : isBlank c = false)
    (hd : isBlank d = false) (hslash : d ≠ '/') (k : Nat)
    (h : occurs remarkMark (c :: middle ++ [d]) = false) (note : List Char) :
    codePart? (c :: middle ++ [d] ++ (List.replicate k ' ' ++ '/' :: '/' :: note)) =
      some (c :: middle ++ [d]) := by
  have hblanks : ∀ b ∈ List.replicate k ' ', isBlank b = true := by
    intro b hb
    rw [(List.mem_replicate.mp hb).2]
    decide
  have hfirst := not_occurs_append_blanks hslash hblanks h
  apply IsCodeOf.codePart?_eq
  refine ⟨⟨c, rfl, hc⟩, ⟨d, List.getLast?_concat, hd⟩, [], List.replicate k ' ', '/' :: '/' :: note, by simp,
    by simp, hblanks, Or.inr ⟨note, rfl⟩, ?_⟩
  simpa [not_occurs_iff] using hfirst

/-! ## Beginnings -/

/-- A beginning of a line without a remark is a beginning of its code, unless
the slash at its end starts one. -/
theorem exists_codePart?_append {c d : Char} {middle : List Char} (hc : isBlank c = false)
    (hd : isBlank d = false) (hslash : d ≠ '/')
    (h : occurs remarkMark (c :: middle ++ [d]) = false) (tail : List Char) :
    ∃ rest, codePart? (c :: middle ++ [d] ++ tail) = some (c :: middle ++ [d] ++ rest) := by
  have hfront : occurs remarkMark (c :: middle) = false :=
    not_occurs_of_infix h (List.prefix_append (c :: middle) [d]).isInfix
  have hbreak : breakOn remarkMark (c :: middle ++ d :: tail) =
      (breakOn remarkMark tail).map fun parts => (c :: middle ++ d :: parts.1, parts.2) :=
    breakOn_append_cons_of_not_mem (by simpa using hslash) hfront tail
  have hbefore : beforeRemark (c :: middle ++ d :: tail) =
      c :: middle ++ d :: beforeRemark tail := by
    rw [beforeRemark, hbreak, beforeRemark]
    cases breakOn remarkMark tail <;> rfl
  have hstart : trimStart (c :: middle ++ d :: tail) = c :: middle ++ d :: tail :=
    trimStart_cons hc (middle ++ d :: tail)
  refine ⟨trimEnd (beforeRemark tail), ?_⟩
  rw [← List.append_cons, ← List.append_cons, codePart?_eq_some_iff, hstart, hbefore,
    trimEnd_append_cons hd]
  exact ⟨by simp, rfl⟩

/-! ## Lines that call the printer -/

/-- A line calls the printer if its code holds the name of the output. -/
theorem liveCode?_eq_some_iff {line code : List Char} :
    liveCode? line = some code ↔ codePart? line = some code ∧ outputCall <:+: code := by
  rw [liveCode?, Option.filter_eq_some_iff, occurs_iff_infix]

/-- Code that starts with the name of the output calls it. -/
theorem liveCode?_of_codePart? {line code : List Char} (h : codePart? line = some code)
    (hcall : outputCall <+: code) : liveCode? line = some code :=
  liveCode?_eq_some_iff.mpr ⟨h, hcall.isInfix⟩

end TicketPress
