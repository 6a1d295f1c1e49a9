import TicketPress.Proofs.Script.Nesting

/-!
# Lines that break off

The line of an instruction can break off anywhere: inside a word or a text,
between a backslash and the character it takes along, before a parenthesis,
inside the remark. Up to the parenthesis that closes the statement no call is
found on what is left, since the lexemes there are those of the statement up to
some place and at most one more that is torn, and none of them closes the call.
From that parenthesis on the line is read as the whole one. `cutReading_line`
collects the cases. What can be left besides is an image, where the line got as
far as to mention the reading of a file.
-/

namespace TicketPress

/-! ## Lexemes that are torn -/

/-- What is left of the last lexeme: nothing, a part of a word, or a text
without its closing quote. -/
inductive TornEnd : List Lexeme → Prop
  | nil : TornEnd []
  | word (spelling : List Char) : TornEnd [.word spelling]
  | stray (spelling : List Char) : TornEnd [.stray spelling]

/-- A text that breaks off is not closed by a quote of its own. -/
theorem closeQuote_eq_none_of_cut {body front : List Char} (h : isQuotable body = true)
    (hfront : front <+: body) : closeQuote front = none := by
  fun_induction isQuotable body generalizing front with
  | case1 =>
      rw [List.prefix_nil.mp hfront]
      rfl
  | case2 => simp at h
  | case3 => simp at h
  | case4 c body ih =>
      rcases List.prefix_cons_iff.mp hfront with rfl | ⟨front, rfl, hescaped⟩
      · rfl
      · rcases List.prefix_cons_iff.mp hescaped with rfl | ⟨front, rfl, hrest⟩
        · rfl
        · rw [closeQuote, ih h hrest]
          rfl
  | case5 c body hquote hend hescape ih =>
      rcases List.prefix_cons_iff.mp hfront with rfl | ⟨front, rfl, hrest⟩
      · rfl
      · rw [closeQuote_cons hquote (ne_backslash hend hescape), ih h hrest]
        rfl

/-- A text without its closing quote is one stray lexeme. -/
theorem tornEnd_quoted {body front : List Char} (h : isQuotable body = true)
    (hfront : front <+: body) :
    TornEnd (lexemes ('"' :: front)) ∧ TornEnd (lexemes ('$' :: '"' :: front)) := by
  have hclose := closeQuote_eq_none_of_cut h hfront
  have hplain : nextLexeme '"' front = (.stray ('"' :: front), []) := by
    simp [nextLexeme, mark?, quotedLexeme, hclose]
  have hfilled : nextLexeme '$' ('"' :: front) = (.stray ('$' :: '"' :: front), []) := by
    simp [nextLexeme, mark?, quotedLexeme, hclose]
  constructor
  · rw [lexemes_next (by decide), hplain, lexemes_nil]
    exact .stray _
  · rw [lexemes_next (by decide), hfilled, lexemes_nil]
    exact .stray _

/-- Of a legible lexeme that is not whole nothing is left but its torn end. -/
theorem tornEnd_lexemes {lexeme : Lexeme} (h : lexeme.Legible) {cut : List Char}
    (hcut : cut <+: lexeme.spelling) (hne : cut ≠ lexeme.spelling) : TornEnd (lexemes cut) := by
  have hempty : TornEnd (lexemes []) := by
    rw [lexemes_nil]
    exact .nil
  have hmark {c : Char} (hcut : cut <+: [c]) (hne : cut ≠ [c]) : TornEnd (lexemes cut) := by
    rcases List.prefix_cons_iff.mp hcut with rfl | ⟨front, rfl, hfront⟩
    · exact hempty
    · exact absurd (by rw [List.prefix_nil.mp hfront]) hne
  cases lexeme with
  | word spelling =>
      cases cut with
      | nil => exact hempty
      | cons c cut =>
          have hword : IsWord (c :: cut) :=
            ⟨List.cons_ne_nil c cut, fun d hd => h.2 d (hcut.subset hd)⟩
          have hread : lexemes (c :: cut ++ []) = .word (c :: cut) :: lexemes [] :=
            lexemes_word hword rfl
          rw [List.append_nil, lexemes_nil] at hread
          rw [hread]
          exact .word _
  | text body interpolated =>
      cases interpolated with
      | false =>
          rcases List.prefix_cons_iff.mp hcut with rfl | ⟨front, rfl, hrest⟩
          · exact hempty
          · rcases List.prefix_concat_iff.mp hrest with rfl | hfront
            · exact absurd rfl hne
            · exact (tornEnd_quoted h hfront).1
      | true =>
          rcases List.prefix_cons_iff.mp hcut with rfl | ⟨front, rfl, hrest⟩
          · exact hempty
          · rcases List.prefix_cons_iff.mp hrest with rfl | ⟨front, rfl, hquoted⟩
            · have hdollar : lexemes ['$'] = [.stray ['$']] := by decide +kernel
              rw [hdollar]
              exact .stray _
            · rcases List.prefix_concat_iff.mp hquoted with rfl | hfront
              · exact absurd rfl hne
              · exact (tornEnd_quoted h hfront).2
  | stray spelling => exact absurd h id
  | openParen | closeParen | comma | dot | semicolon => exact hmark hcut hne

theorem startsWord_of_cut {line front : List Char} (h : startsWord line = false)
    (hfront : front <+: line) : startsWord front = false := by
  rcases hfront with ⟨rest, rfl⟩
  cases front with
  | nil => rfl
  | cons c front => exact h

/-- Of legible lexemes laid out, a beginning holds the first ones and the torn
end of one more. What follows them ends a word before it. -/
theorem exists_lexemes_of_prefix_laidOut {list more : List Lexeme}
    (h : ∀ lexeme ∈ list ++ more, lexeme.Legible) (hwords : wordsEnd (list ++ more) = true)
    {cut : List Char} (hcut : cut <+: laidOut list) :
    ∃ whole torn, lexemes cut = whole ++ torn ∧ whole <+: list ∧ TornEnd torn := by
  induction list generalizing cut with
  | nil =>
      obtain rfl : cut = [] := List.prefix_nil.mp hcut
      exact ⟨[], [], lexemes_nil, List.nil_prefix, .nil⟩
  | cons lexeme list ih =>
      have hlexeme : lexeme.Legible := h lexeme (by simp)
      have hothers : ∀ other ∈ list ++ more, other.Legible :=
        fun other hother => h other (List.mem_cons_of_mem lexeme hother)
      rcases Text.prefix_append_cases hcut with ⟨rest, hrest, rfl⟩ | ⟨hshort, hne⟩
      · obtain ⟨whole, torn, hlexemes, hwhole, htorn⟩ :=
          ih hothers (wordsEnd_of_cons hwords) hrest
        have hline : lexeme.isWord = true → startsWord rest = false := by
          intro hword
          have hnext := startsWord_of_wordsEnd hothers hwords hword []
          rw [List.append_nil, laidOut_append] at hnext
          exact startsWord_of_cut hnext (hrest.trans (List.prefix_append _ _))
        refine ⟨lexeme :: whole, torn, ?_, List.cons_prefix_cons.mpr ⟨rfl, hwhole⟩, htorn⟩
        rw [lexemes_laidOut_append hlexeme hline, hlexemes, List.cons_append]
      · by_cases hcomma : lexeme = .comma
        · subst hcomma
          -- A comma that lost its blank is whole.
          rcases List.prefix_concat_iff.mp (show cut <+: [','] ++ [' '] from hshort) with
            rfl | hstart
          · exact absurd rfl hne
          rcases List.prefix_cons_iff.mp hstart with rfl | ⟨front, rfl, hfront⟩
          · exact ⟨[], [], lexemes_nil, List.nil_prefix, .nil⟩
          · have hread : lexemes [','] = [.comma] := by decide +kernel
            rw [List.prefix_nil.mp hfront, hread]
            exact ⟨[.comma], [], rfl, ⟨list, rfl⟩, .nil⟩
        · rw [Lexeme.laidOut_eq_spelling hcomma] at hshort hne
          exact ⟨[], _, rfl, List.nil_prefix, tornEnd_lexemes hlexeme hshort hne⟩

/-- A torn end neither opens nor closes a parenthesis. -/
theorem TornEnd.not_paren {torn : List Lexeme} (h : TornEnd torn) :
    ∀ lexeme ∈ torn, lexeme ≠ .openParen ∧ lexeme ≠ .closeParen := by
  cases h <;> simp

/-! ## Statements that break off -/

namespace Instruction

/-- The lexemes of a statement before the parenthesis that closes its call. -/
def unclosed (i : Instruction) : List Lexeme :=
  .word outputCall :: .openParen :: writtenArguments i.arguments

theorem written_call_eq (i : Instruction) :
    (Expr.call [outputCall] i.arguments).written = i.unclosed ++ [.closeParen] := by
  rw [Expr.written]
  simp [writtenPath, unclosed]

theorem written_eq (i : Instruction) : i.written = i.unclosed ++ [.closeParen, .semicolon] := by
  rw [written, written_call_eq, List.append_assoc]
  rfl

/-- No call is found before the parenthesis that closes it. -/
theorem findCall_eq_none_of_cut {i : Instruction} (hpayload : isQuotable i.payload = true)
    {code : List Char} (hcode : code <+: laidOut i.unclosed) : findCall outputCall code = none := by
  have hlegible := legible_of_mem_written hpayload
  have hwords := wordsEnd_written i
  rw [written_eq] at hlegible hwords
  obtain ⟨whole, torn, hlexemes, hwhole, htorn⟩ :=
    exists_lexemes_of_prefix_laidOut hlegible hwords hcode
  rcases List.prefix_cons_iff.mp hwhole with rfl | ⟨whole, rfl, hafter⟩
  · rw [findCall, hlexemes]
    cases htorn <;> rfl
  rcases List.prefix_cons_iff.mp hafter with rfl | ⟨whole, rfl, harguments⟩
  · rw [findCall, hlexemes]
    cases htorn <;> rfl
  apply findCall_eq_none_of_open hlexemes
  intro front hfront
  have hnested := nested_writtenArguments i.arguments
  rcases Text.prefix_append_cases hfront with ⟨more, hmore, rfl⟩ | ⟨hstart, -⟩
  · rw [openParens_append,
      openParens_of_forall fun lexeme hmem => htorn.not_paren lexeme (hmore.subset hmem),
      Int.add_zero]
    exact hnested.bounded whole harguments
  · exact hnested.bounded front (hstart.trans harguments)

/-- A statement without an inner call holds no dotted name. -/
theorem dot_not_mem_unclosed {i : Instruction} (h : i.inner? = none) :
    '.' ∉ laidOut i.unclosed := by
  have houtput : IsWord outputCall := by decide
  have hword {spelling : List Char} (hspelling : IsWord spelling) :
      '.' ∉ (Lexeme.word spelling).laidOut :=
    fun hmem => absurd (hspelling.2 '.' hmem) (by decide)
  intro hmem
  obtain ⟨lexeme, hlexeme, hin⟩ := List.mem_flatMap.mp hmem
  simp only [unclosed, List.mem_cons] at hlexeme
  rcases hlexeme with rfl | rfl | hargument
  · exact hword houtput hin
  · exact absurd hin (by decide)
  · rcases of_mem_writtenArguments hargument with rfl | ⟨argument, hargument, hlexeme⟩
    · exact absurd hin (by decide)
    · rw [arguments, h, Option.toList_none, List.append_nil] at hargument
      obtain ⟨spelling, hspelling, rfl⟩ := List.mem_map.mp hargument
      rw [Expr.written, List.mem_singleton] at hlexeme
      subst hlexeme
      exact hword (isWord_of_mem_words spelling hspelling) hin

/-- What the line of an instruction can turn out to be when it breaks off: the
instruction, nothing, or an image without a name of its own. The last needs a
call inside the statement. -/
inductive CutReading (i : Instruction) : Option Recognition → Prop
  | whole : CutReading i (some (.instruction i))
  | silent : CutReading i none
  | unread : CutReading i (some (.unrecognized none))
  | mention (h : i.inner? ≠ none) :
    CutReading i (some (.instruction (.loadImage fallbackFile.toList)))

/-- Before its call is closed a line starts no remark, so it is its own code up
to blanks. -/
theorem prefix_of_liveCode? {i : Instruction} (hremark : Text.occurs remarkMark i.payload = false)
    {cut code : List Char} (hcut : cut <+: laidOut i.unclosed) (hcode : liveCode? cut = some code) :
    code <+: laidOut i.unclosed := by
  have hstatement : Text.occurs remarkMark (laidOut i.unclosed) = false := by
    apply not_occurs_remarkMark_laidOut hremark
    intro lexeme hmem
    apply carries_of_mem_written
    rw [written_eq]
    exact List.mem_append_left _ hmem
  obtain ⟨hpart, -⟩ := liveCode?_eq_some_iff.mp hcode
  cases cut with
  | nil =>
      have hnone : codePart? [] = none := rfl
      simp [hnone] at hpart
  | cons c cut =>
      obtain ⟨tail, htail⟩ : ∃ tail, laidOut i.unclosed = 'B' :: tail := ⟨_, rfl⟩
      obtain rfl : c = 'B' := by
        rw [htail] at hcut
        exact (List.cons_prefix_cons.mp hcut).1
      have hfree := Text.not_occurs_of_infix hstatement hcut.isInfix
      rw [codePart?_of_not_occurs (by decide) hfree] at hpart
      obtain rfl := Option.some.inj hpart
      exact (Text.trimEnd_isPrefix _).trans hcut

/-- Before its call is closed a line gives nothing, unless it got as far as to
mention the reading of a file. -/
theorem cutReading_unclosed {i : Instruction} (hsafe : i.Safe) {cut : List Char}
    (hcut : cut <+: laidOut i.unclosed) : i.CutReading ((liveCode? cut).map recognize) := by
  cases hlive : liveCode? cut with
  | none => exact .silent
  | some code =>
      have hcode := prefix_of_liveCode? hsafe.payload.noRemark hcut hlive
      rw [Option.map_some, recognize, findCall_eq_none_of_cut hsafe.payload.quotable hcode]
      by_cases hmention : Text.occurs readerCall code = true
      · have hdot : '.' ∈ laidOut i.unclosed :=
          hcode.subset ((Text.occurs_iff_infix.mp hmention).subset (by decide))
        simp only [hmention, if_true]
        exact .mention fun hinner => dot_not_mem_unclosed hinner hdot
      · simp only [hmention]
        exact .unread

/-- From the parenthesis on that closes its call a line is read as the whole
one. -/
theorem reading_closed {i : Instruction} (h : i ≠ .selectCharset) (hsafe : i.Safe)
    (more : List Char) :
    (liveCode? (laidOut (i.unclosed ++ [.closeParen]) ++ more)).map recognize =
      some (.instruction i) := by
  have hmem : ∀ lexeme ∈ i.unclosed ++ [.closeParen], lexeme ∈ i.written := by
    intro lexeme hlexeme
    rw [written, written_call_eq]
    exact List.mem_append_left _ hlexeme
  have hremark : Text.occurs remarkMark (laidOut (i.unclosed ++ [.closeParen])) = false :=
    not_occurs_remarkMark_laidOut hsafe.payload.noRemark
      fun lexeme hlexeme => carries_of_mem_written (hmem lexeme hlexeme)
  have hwords : wordsEnd (i.unclosed ++ [.closeParen]) = true := by
    cases i with
    | text literal size => cases size <;> rfl
    | _ => rfl
  obtain ⟨middle, hmiddle⟩ : ∃ middle,
      laidOut (i.unclosed ++ [.closeParen]) = 'B' :: middle ++ [')'] := by
    rw [laidOut_append]
    exact ⟨_, rfl⟩
  obtain ⟨rest, hcode⟩ : ∃ rest, codePart? (laidOut (i.unclosed ++ [.closeParen]) ++ more) =
      some (laidOut (i.unclosed ++ [.closeParen]) ++ rest) := by
    rw [hmiddle] at hremark ⊢
    exact exists_codePart?_append (by decide) (by decide) (by decide) hremark more
  have hlexemes := lexemes_laidOut
    (fun lexeme hlexeme => legible_of_mem_written hsafe.payload.quotable lexeme
      (hmem lexeme hlexeme)) hwords rest
  rw [← written_call_eq] at hlexemes
  rw [liveCode?_of_codePart? hcode ⟨_, rfl⟩, Option.map_some]
  exact congrArg some (recognize_of_written h hsafe hlexemes)

/-- A line that breaks off is read as the whole one if its call is closed. -/
theorem cutReading_line {i : Instruction} (h : i ≠ .selectCharset) (hsafe : i.Safe)
    {cut : List Char} (hcut : cut <+: i.line) : i.CutReading ((liveCode? cut).map recognize) := by
  have hline : i.line = laidOut (i.unclosed ++ [.closeParen]) ++ (';' :: i.remark) := by
    rw [line, statement_eq h, written_eq]
    simp [Lexeme.laidOut, Lexeme.spelling]
  rw [hline] at hcut
  rcases Text.prefix_append_cases hcut with ⟨more, -, rfl⟩ | ⟨hshort, hne⟩
  · rw [reading_closed h hsafe]
    exact .whole
  · rw [laidOut_append] at hshort hne
    rcases List.prefix_concat_iff.mp hshort with hall | hopen
    · exact absurd hall hne
    · exact cutReading_unclosed hsafe hopen

end Instruction

end TicketPress
