import TicketPress.Proofs.Script.Recognition

/-!
# Lines that carry any text

A text is written into its statement as it is. It may close its quotes early,
start a remark or make the line unreadable, but what stands before it is fixed:
the statement up to the opening parenthesis of its inner call. That alone
settles what the line can turn out to be. `mayRead_line` says that a text is
read as a text of the same size, as an image, or as nothing, an image always
as an image, and every other instruction as itself.
-/

namespace TicketPress

/-! ## Beginnings of statements -/

/-- The lexemes of a statement up to the arguments of its inner call. -/
def opening (words callee : List (List Char)) : List Lexeme :=
  .word outputCall :: .openParen ::
    ((words.flatMap fun spelling => [.word spelling, .comma]) ++
      (writtenPath callee ++ [.openParen]))

theorem laidOut_opening (words callee : List (List Char)) :
    laidOut (opening words callee) = outputCall ++ '(' ::
      (laidOut (words.flatMap fun spelling => [.word spelling, .comma]) ++
        (laidOut (writtenPath callee) ++ ['('])) := by
  simp only [opening, laidOut_cons, laidOut_append]
  rfl

theorem writtenArguments_words (words : List (List Char)) (e : Expr) :
    writtenArguments (words.map .word ++ [e]) =
      (words.flatMap fun spelling => [.word spelling, .comma]) ++ e.written := by
  have hothers : ∀ (words : List (List Char)) (first : Expr),
      writtenArguments (first :: (words.map .word ++ [e])) =
        first.written ++ .comma :: writtenArguments (words.map .word ++ [e]) := by
    intro words first
    cases words with
    | nil => simp [writtenArguments, writtenOthers]
    | cons spelling words => simp [writtenArguments, writtenOthers]
  induction words with
  | nil => simp [writtenArguments, writtenOthers]
  | cons spelling words ih =>
      rw [List.map_cons, List.cons_append, hothers, ih, Expr.written]
      rfl

theorem plain_of_mem_opening {words callee : List (List Char)}
    (hwords : ∀ spelling ∈ words, IsWord spelling) (hcallee : ∀ segment ∈ callee, IsWord segment) :
    ∀ lexeme ∈ opening words callee, lexeme.Plain := by
  have houtput : IsWord outputCall := by decide
  intro lexeme hmem
  simp only [opening, List.mem_cons, List.mem_append, List.mem_flatMap, List.not_mem_nil,
    or_false] at hmem
  rcases hmem with rfl | rfl | ⟨spelling, hspelling, rfl | rfl⟩ | hpath | rfl
  · exact houtput
  · trivial
  · exact hwords spelling hspelling
  · trivial
  · exact forall_mem_writtenPath hcallee lexeme hpath
  · trivial

/-- The code of a line begins with the opening of its statement. -/
theorem Instruction.exists_codePart?_opening {i : Instruction} {callee : List (List Char)}
    {arguments : List Expr} (h : i.inner? = some (.call callee arguments))
    (hcallee : ∀ segment ∈ callee, IsWord segment)
    (hwords : wordsEnd (opening i.words callee) = true) :
    ∃ code rest, codePart? i.line = some code ∧ outputCall <+: code ∧
      laidOut (opening i.words callee) <+: code ∧
      lexemes code = opening i.words callee ++ rest := by
  have hne : i ≠ .selectCharset := by
    rintro rfl
    simp [inner?] at h
  have hplain := plain_of_mem_opening (isWord_of_mem_words (i := i)) hcallee
  obtain ⟨tail, htail⟩ : ∃ tail, i.written = opening i.words callee ++ tail := by
    refine ⟨writtenArguments arguments ++ [.closeParen, .closeParen, .semicolon], ?_⟩
    rw [written, Expr.written, Instruction.arguments, h, Option.toList_some,
      writtenArguments_words, Expr.written]
    simp [opening, writtenPath]
  obtain ⟨middle, hmiddle⟩ : ∃ middle,
      laidOut (opening i.words callee) = 'B' :: middle ++ ['('] := by
    rw [laidOut_opening, ← List.append_assoc (laidOut _), ← List.cons_append,
      ← List.append_assoc outputCall]
    exact ⟨_, rfl⟩
  have hnone : Text.occurs remarkMark [] = false := rfl
  have hremark : Text.occurs remarkMark (laidOut (opening i.words callee)) = false :=
    not_occurs_remarkMark_laidOut hnone fun lexeme hmem => Or.inl (hplain lexeme hmem)
  have hline : i.line = laidOut (opening i.words callee) ++ (laidOut tail ++ i.remark) := by
    rw [line, statement_eq hne, htail, laidOut_append, List.append_assoc]
  obtain ⟨rest, hcode⟩ : ∃ rest, codePart? i.line =
      some (laidOut (opening i.words callee) ++ rest) := by
    rw [hline]
    rw [hmiddle] at hremark ⊢
    exact exists_codePart?_append (by decide) (by decide) (by decide) hremark _
  refine ⟨_, lexemes rest, hcode, ?_, List.prefix_append _ _, ?_⟩
  · rw [laidOut_opening, List.append_assoc]
    exact List.prefix_append outputCall _
  · exact lexemes_laidOut (fun lexeme hmem => (hplain lexeme hmem).legible) hwords rest

/-! ## Reading on from an opening -/

theorem exists_of_readList_eq_some {read : List Lexeme → Option (Expr × List Lexeme)}
    {bound : Nat} {lexemes : List Lexeme} {found : List Expr × List Lexeme}
    (h : readList read bound lexemes = some found) :
    ∃ first rest others, read lexemes = some (first, rest) ∧ found.1 = first :: others := by
  cases bound with
  | zero => simp [readList] at h
  | succ bound =>
      rw [readList] at h
      cases hread : read lexemes with
      | none => simp [hread] at h
      | some parts =>
          obtain ⟨first, rest⟩ := parts
          simp only [hread, Option.bind_eq_bind, Option.bind_some, Option.pure_def] at h
          split at h
          · rename_i tail
            obtain ⟨⟨others, more⟩, -, hfound⟩ := Option.bind_eq_some_iff.mp h
            obtain rfl : (first :: others, more) = found := by simpa using hfound
            exact ⟨first, _, others, rfl, rfl⟩
          · rename_i tail
            obtain rfl : ([first], tail) = found := by simpa using h
            exact ⟨first, _, [], rfl, rfl⟩
          · exact absurd h (by simp)

/-- Arguments that begin with words and the opening of a call are these words
and a call of that name, if they can be read at all. -/
theorem readList_opening {levels : Nat} {words callee : List (List Char)} (hcallee : callee ≠ [])
    {bound : Nat} {rest : List Lexeme} {found : List Expr × List Lexeme}
    (h : readList (readExpr (levels + 1)) bound
      ((words.flatMap fun spelling => [.word spelling, .comma]) ++
        (writtenPath callee ++ .openParen :: rest)) = some found) :
    ∃ arguments others, found.1 = words.map .word ++ .call callee arguments :: others := by
  induction words generalizing bound found with
  | nil =>
      obtain ⟨first, more, others, hread, hfound⟩ := exists_of_readList_eq_some h
      rw [List.flatMap_nil, List.nil_append, readExpr_call levels hcallee] at hread
      obtain ⟨parts, -, hpair⟩ := Option.map_eq_some_iff.mp hread
      obtain ⟨rfl, -⟩ : Expr.call callee parts.1 = first ∧ _ = more := by simpa using hpair
      exact ⟨parts.1, others, by simpa using hfound⟩
  | cons spelling words ih =>
      cases bound with
      | zero => simp [readList] at h
      | succ bound =>
          have hword : ∀ tail, readExpr (levels + 1) (.word spelling :: .comma :: tail) =
              some (.word spelling, .comma :: tail) := by
            intro tail
            exact readExpr_name levels spelling [] ⟨by simp, by simp⟩
          rw [List.flatMap_cons, List.append_assoc, List.cons_append, List.cons_append,
            List.nil_append, readList_of_read bound (hword _)] at h
          obtain ⟨parts, hparts, rfl⟩ := Option.map_eq_some_iff.mp h
          obtain ⟨arguments, others, hfound⟩ := ih hparts
          exact ⟨arguments, others, by simp [hfound]⟩

/-- A call that is found behind an opening has the words of the opening and its
inner call as arguments. -/
theorem findCall_opening {words callee : List (List Char)} (hcallee : callee ≠ [])
    {code : List Char} {rest : List Lexeme} (hcode : lexemes code = opening words callee ++ rest)
    {call : Call} (h : findCall outputCall code = some call) :
    ∃ arguments others, call.arguments = words.map .word ++ .call callee arguments :: others := by
  have hstart : lexemes code = .word outputCall :: .openParen ::
      ((words.flatMap fun spelling => [.word spelling, .comma]) ++
        (writtenPath callee ++ .openParen :: rest)) := by
    rw [hcode]
    simp [opening]
  rw [findCall_of_lexemes hstart, readArguments_of_head?] at h
  · obtain ⟨found, hfound, rfl⟩ := Option.map_eq_some_iff.mp h
    exact readList_opening hcallee hfound
  · cases words with
    | nil =>
        cases callee with
        | nil => exact absurd rfl hcallee
        | cons first segments => simp [writtenPath]
    | cons spelling words => simp

/-! ## What the line may be -/

/-- What the line of an instruction may turn out to be, whatever text it
carries. -/
def Instruction.MayRead : Instruction → Recognition → Prop
  | .text _ size, r => (∃ literal, r = .instruction (.text literal size)) ∨
      (∃ file, r = .instruction (.loadImage file)) ∨ r = .unrecognized none
  | .loadImage _, r => ∃ file, r = .instruction (.loadImage file)
  | i, r => r = .instruction i

theorem exists_of_image? {call : Call} {i : Instruction} (h : call.image? = some i) :
    ∃ file, i = .loadImage file := by
  obtain ⟨reader, -, rfl⟩ := Option.map_eq_some_iff.mp h
  exact ⟨_, rfl⟩

section OpenedCall

variable {call : Call} {callee : List (List Char)} {arguments others : List Expr}

theorem bytes?_eq_none_of_opening {words : List (List Char)}
    (h : call.arguments = words.map .word ++ .call callee arguments :: others) :
    call.bytes? = none := by
  have hmem : .call callee arguments ∈ call.arguments := by
    rw [h]
    exact List.mem_append_right _ (List.mem_cons_self ..)
  exact Call.bytes?_eq_none hmem rfl

/-- A size that is read behind the words of a text is the size in these words. -/
theorem text_of_sizedText? {literal : Literal} {size : Option FontSize} {i : Instruction}
    (h : call.arguments = (Instruction.text literal size).words.map .word ++
      .call callee arguments :: others)
    (hsized : call.sizedText? = some i) : ∃ found, i = .text found size := by
  obtain ⟨lead, code, size', text, n, found, hfour, hlead, -, hsize', -, rfl⟩ :=
    Call.of_sizedText? hsized
  rw [h] at hfour
  cases size with
  | none =>
      -- Without a size the call stands where the first byte would.
      obtain ⟨rfl, -⟩ : Expr.call callee arguments = lead ∧ _ := by
        simpa [Instruction.words] using hfour
      simp [Expr.number?, Expr.word?] at hlead
  | some size =>
      obtain ⟨-, -, rfl, -⟩ : _ ∧ _ ∧ Expr.word (hexText size.operand) = size' ∧ _ := by
        simpa [Instruction.words, Command.arguments] using hfour
      obtain rfl : size.operand = n := by
        simpa [Expr.number?, Expr.word?, number?_hexText] using hsize'
      exact ⟨found, by simp⟩

/-- A text without a size is read only where no words stand. -/
theorem text_of_plainText? {literal : Literal} {size : Option FontSize} {i : Instruction}
    (h : call.arguments = (Instruction.text literal size).words.map .word ++
      .call callee arguments :: others)
    (hplain : call.plainText? = some i) : ∃ found, i = .text found size := by
  obtain ⟨text, found, hone, -, rfl⟩ := Call.of_plainText? hplain
  rw [h] at hone
  cases size with
  | none => exact ⟨found, rfl⟩
  | some size => simp [Instruction.words, Command.arguments] at hone

end OpenedCall

theorem mayRead_text {literal : Literal} {size : Option FontSize} {code : List Char}
    {rest : List Lexeme}
    (hcode : lexemes code =
      opening (Instruction.text literal size).words (encoderCall.splitOn '.') ++ rest) :
    (Instruction.text literal size).MayRead (recognize code) := by
  rw [recognize]
  cases hfind : findCall outputCall code with
  | none =>
      by_cases hreader : Text.occurs readerCall code = true
      · simp only [hreader, if_true]
        exact Or.inr (Or.inl ⟨_, rfl⟩)
      · simp only [hreader]
        exact Or.inr (Or.inr rfl)
  | some call =>
      obtain ⟨arguments, others, hcall⟩ := findCall_opening (by decide) hcode hfind
      rcases Call.recognize_cases (bytes?_eq_none_of_opening hcall) with
        ⟨i, hi, hrecognize⟩ | ⟨-, hrecognize⟩
      · simp only [hrecognize]
        rcases hi with hsized | hplain | himage
        · obtain ⟨found, rfl⟩ := text_of_sizedText? hcall hsized
          exact Or.inl ⟨found, rfl⟩
        · obtain ⟨found, rfl⟩ := text_of_plainText? hcall hplain
          exact Or.inl ⟨found, rfl⟩
        · obtain ⟨file, rfl⟩ := exists_of_image? himage
          exact Or.inr (Or.inl ⟨file, rfl⟩)
      · simp only [hrecognize]
        exact Or.inr (Or.inr rfl)

theorem mayRead_loadImage {file : List Char} {code : List Char} {rest : List Lexeme}
    (hreader : Text.occurs readerCall code = true)
    (hcode : lexemes code = opening [] (readerCall.splitOn '.') ++ rest) :
    (Instruction.loadImage file).MayRead (recognize code) := by
  rw [recognize]
  cases hfind : findCall outputCall code with
  | none =>
      simp only [hreader, if_true]
      exact ⟨_, rfl⟩
  | some call =>
      obtain ⟨arguments, others, hcall⟩ := findCall_opening (by decide) hcode hfind
      have hbytes := bytes?_eq_none_of_opening hcall
      rw [List.map_nil, List.nil_append] at hcall
      rcases Call.recognize_cases hbytes with ⟨i, hi, hrecognize⟩ | ⟨himage, -⟩
      · simp only [hrecognize]
        rcases hi with hsized | hplain | himage
        · obtain ⟨lead, code, size, text, n, literal, hfour, hlead, -⟩ :=
            Call.of_sizedText? hsized
          obtain ⟨rfl, -⟩ : Expr.call _ arguments = lead ∧ _ := by
            simpa [hcall] using hfour
          simp [Expr.number?, Expr.word?] at hlead
        · obtain ⟨text, literal, hone, hliteral, -⟩ := Call.of_plainText? hplain
          obtain ⟨callee, hnamed, rfl⟩ := Expr.of_literal? hliteral
          obtain ⟨⟨rfl, -⟩, -⟩ : (readerCall.splitOn '.' = callee ∧ _) ∧ _ := by
            simpa [hcall] using hone
          exact absurd hnamed (by decide)
        · obtain ⟨file, rfl⟩ := exists_of_image? himage
          exact ⟨file, rfl⟩
      · rw [Call.image?, hcall, findAmong?,
          Expr.find?_of_isNamed (isNamed_splitOn readerCall)] at himage
        simp at himage

/-- Whatever text it carries, the line of an instruction calls the printer and
is read as something of its own kind, or as nothing. -/
theorem Instruction.mayRead_line {i : Instruction} (h : i ≠ .selectCharset) :
    ∃ r, (liveCode? i.line).map recognize = some r ∧ i.MayRead r := by
  cases i with
  | selectCharset => exact absurd rfl h
  | text literal size =>
      have hinner : (text literal size).inner? = some (.call (encoderCall.splitOn '.')
          [.text literal.body literal.interpolated]) := rfl
      obtain ⟨code, rest, hcode, hcall, -, hlexemes⟩ :=
        exists_codePart?_opening hinner (by decide) (by cases size <;> rfl)
      refine ⟨recognize code, ?_, mayRead_text hlexemes⟩
      rw [liveCode?_of_codePart? hcode hcall, Option.map_some]
  | loadImage file =>
      have hinner : (loadImage file).inner? = some (.call (readerCall.splitOn '.')
          [.call (joinCall.splitOn '.') [.path (imageFolder.splitOn '.'), .text file false]]) :=
        rfl
      obtain ⟨code, rest, hcode, hcall, hopening, hlexemes⟩ :=
        exists_codePart?_opening hinner (by decide) rfl
      have hreader : Text.occurs readerCall code = true := by
        have hin : readerCall <:+: laidOut (opening [] (readerCall.splitOn '.')) := by
          rw [laidOut_opening, laidOut_writtenPath_splitOn]
          exact ⟨outputCall ++ ['('], ['('], by simp⟩
        exact Text.occurs_iff_infix.mpr (hin.trans hopening.isInfix)
      refine ⟨recognize code, ?_, mayRead_loadImage hreader hlexemes⟩
      rw [liveCode?_of_codePart? hcode hcall, Option.map_some]
  | _ => exact ⟨_, recognize_line h (safe_of_payload_eq_nil rfl (by simp)), rfl⟩

end TicketPress
