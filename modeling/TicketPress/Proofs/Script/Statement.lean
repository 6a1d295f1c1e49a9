import TicketPress.Proofs.Script.CodePart
import TicketPress.Proofs.Script.Expression
import TicketPress.Proofs.Script.Lexing

/-!
# The statement of an instruction

Every statement but the one that declares the charset is a call of the output:
first bytes, written as numbers, then at most one call that encodes a text or
reads a file. Laid out as lexemes the statement is what the lexer reads, and a
slash can stand in it only inside the text it carries. So the code of the line
is the statement, as long as that text starts no remark.
-/

namespace TicketPress

/-! ## Expressions as text -/

theorem laidOut_writtenArguments (arguments : List Expr) :
    laidOut (writtenArguments arguments) =
      argumentsText (arguments.map fun argument => laidOut argument.written) := by
  cases arguments with
  | nil => simp [writtenArguments, argumentsText]
  | cons first others =>
      induction others generalizing first with
      | nil => simp [writtenArguments, writtenOthers, argumentsText]
      | cons next others ih =>
          have hrest := ih next
          simp only [writtenArguments, laidOut_append, argumentsText, List.map_cons] at hrest
          simp only [writtenArguments, writtenOthers, laidOut_append, laidOut_cons, hrest,
            argumentsText, List.map_cons, List.intercalate_cons_cons, Lexeme.laidOut]
          simp

theorem laidOut_writtenPath {segments : List (List Char)} (h : segments ≠ []) :
    laidOut (writtenPath segments) = ['.'].intercalate segments := by
  cases segments with
  | nil => exact absurd rfl h
  | cons first segments =>
      induction segments generalizing first with
      | nil => simp [writtenPath, Lexeme.laidOut, Lexeme.spelling]
      | cons segment segments ih =>
          have hrest := ih segment (by simp)
          simp only [writtenPath, laidOut_cons, List.flatMap_cons, laidOut_append] at hrest ⊢
          rw [List.intercalate_cons_cons, ← hrest]
          simp [Lexeme.laidOut, Lexeme.spelling]

/-- A dotted name is laid out as it is. -/
theorem laidOut_writtenPath_splitOn (name : List Char) :
    laidOut (writtenPath (name.splitOn '.')) = name := by
  rw [laidOut_writtenPath (List.splitOn_ne_nil _ _), List.intercalate_splitOn]

theorem laidOut_call (callee : List (List Char)) (arguments : List Expr) :
    laidOut (Expr.call callee arguments).written =
      callText (laidOut (writtenPath callee))
        (arguments.map fun argument => laidOut argument.written) := by
  rw [Expr.written, laidOut_append, laidOut_cons, laidOut_append, laidOut_writtenArguments]
  rfl

theorem laidOut_literal (literal : Literal) :
    laidOut (Expr.text literal.body literal.interpolated).written = literal.text := by
  obtain ⟨body, interpolated⟩ := literal
  cases interpolated with
  | false => simp [Expr.written, Lexeme.laidOut, Lexeme.spelling, Literal.text, inQuotes]
  | true => simp [Expr.written, Lexeme.laidOut, Lexeme.spelling, Literal.text, inQuotes]

/-! ## Words and marks -/

/-- A word or a mark, which no text of a layout has a part in. -/
def Lexeme.Plain : Lexeme → Prop
  | .word spelling => IsWord spelling
  | .text .. | .stray _ => False
  | _ => True

theorem Lexeme.Plain.legible {lexeme : Lexeme} (h : lexeme.Plain) : lexeme.Legible := by
  cases lexeme with
  | text body interpolated => exact absurd h id
  | _ => exact h

theorem Lexeme.Plain.slash_not_mem {lexeme : Lexeme} (h : lexeme.Plain) :
    '/' ∉ lexeme.laidOut := by
  cases lexeme with
  | word spelling => exact fun hmem => absurd (h.2 '/' hmem) (by decide)
  | text | stray => exact absurd h id
  | _ => decide

theorem forall_mem_writtenPath {segments : List (List Char)}
    (h : ∀ segment ∈ segments, IsWord segment) :
    ∀ lexeme ∈ writtenPath segments, lexeme.Plain := by
  intro lexeme hmem
  cases segments with
  | nil => simp [writtenPath] at hmem
  | cons first segments =>
      simp only [writtenPath, List.mem_cons, List.mem_flatMap, List.not_mem_nil, or_false] at hmem
      rcases hmem with rfl | ⟨segment, hsegment, rfl | rfl⟩
      · exact h first (by simp)
      · trivial
      · exact h segment (by simp [hsegment])

/-- A word, a mark, or a text of one body. -/
def Lexeme.Carries (body : List Char) (lexeme : Lexeme) : Prop :=
  lexeme.Plain ∨ ∃ flag, lexeme = .text body flag

/-- A call carries what its arguments carry. -/
theorem carries_of_mem_call {body : List Char} {callee : List (List Char)}
    (hcallee : ∀ segment ∈ callee, IsWord segment) {arguments : List Expr}
    (h : ∀ argument ∈ arguments, ∀ lexeme ∈ argument.written, lexeme.Carries body) :
    ∀ lexeme ∈ (Expr.call callee arguments).written, lexeme.Carries body := by
  intro lexeme hmem
  simp only [Expr.written, List.mem_append, List.mem_cons, List.not_mem_nil, or_false] at hmem
  rcases hmem with hpath | rfl | hmem | rfl
  · exact Or.inl (forall_mem_writtenPath hcallee lexeme hpath)
  · exact Or.inl trivial
  · rcases of_mem_writtenArguments hmem with rfl | ⟨argument, hargument, hlexeme⟩
    · exact Or.inl trivial
    · exact h argument hargument lexeme hlexeme
  · exact Or.inl trivial

/-- A slash stands only inside texts, and the quotes around a text keep it from
what stands before and after it. -/
theorem not_occurs_remarkMark_laidOut {body : List Char} {list : List Lexeme}
    (hbody : Text.occurs remarkMark body = false)
    (h : ∀ lexeme ∈ list, lexeme.Carries body) :
    Text.occurs remarkMark (laidOut list) = false := by
  induction list with
  | nil => rfl
  | cons lexeme list ih =>
      have hrest := ih fun other hother => h other (by simp [hother])
      rw [laidOut_cons]
      rcases h lexeme (by simp) with hplain | ⟨flag, rfl⟩
      · exact (Text.occurs_append_of_not_mem hplain.slash_not_mem _).trans hrest
      · have hdivide : ∀ before after : List Char,
            Text.occurs remarkMark (before ++ '"' :: after) =
              (Text.occurs remarkMark before || Text.occurs remarkMark after) :=
          Text.occurs_append_cons_of_not_mem (by decide)
        have hquoted : Text.occurs remarkMark ('"' :: (body ++ '"' :: laidOut list)) = false := by
          have hopen := hdivide [] (body ++ '"' :: laidOut list)
          rw [List.nil_append, hdivide body, hbody, hrest] at hopen
          rw [hopen]
          rfl
        cases flag with
        | false => simpa [Lexeme.laidOut, Lexeme.spelling] using hquoted
        | true =>
            have hdollar : Text.occurs remarkMark
                (['$'] ++ '"' :: (body ++ '"' :: laidOut list)) = false :=
              (Text.occurs_append_of_not_mem (by decide) _).trans hquoted
            simpa [Lexeme.laidOut, Lexeme.spelling] using hdollar

/-! ## The arguments of a statement -/

/-- The call that encodes a literal. -/
def Literal.encoding (literal : Literal) : Expr :=
  .call (encoderCall.splitOn '.') [.text literal.body literal.interpolated]

/-- The call that reads the file of an image. -/
def fileReading (file : List Char) : Expr :=
  .call (readerCall.splitOn '.')
    [.call (joinCall.splitOn '.') [.path (imageFolder.splitOn '.'), .text file false]]

theorem map_laidOut_word (words : List (List Char)) :
    (words.map Expr.word).map (fun argument => laidOut argument.written) = words := by
  have hword : ∀ spelling, laidOut (Expr.word spelling).written = spelling := by
    intro spelling
    simp [Expr.written, Lexeme.laidOut, Lexeme.spelling]
  rw [List.map_map]
  exact (List.map_congr_left fun spelling _ => hword spelling).trans (List.map_id _)

theorem Literal.laidOut_encoding (literal : Literal) :
    laidOut literal.encoding.written = literal.encoded := by
  rw [encoding, laidOut_call, laidOut_writtenPath_splitOn, List.map_singleton, laidOut_literal,
    encoded]

theorem laidOut_fileReading (file : List Char) :
    laidOut (fileReading file).written =
      callText readerCall [callText joinCall [imageFolder, inQuotes file]] := by
  have hfolder : laidOut (Expr.path (imageFolder.splitOn '.')).written = imageFolder := by
    rw [Expr.written, laidOut_writtenPath_splitOn]
  have hquotes : laidOut (Expr.text file false).written = inQuotes file :=
    laidOut_literal ⟨file, false⟩
  rw [fileReading, laidOut_call, List.map_singleton, laidOut_call, laidOut_writtenPath_splitOn,
    laidOut_writtenPath_splitOn, List.map_cons, List.map_singleton, hfolder, hquotes]

namespace Instruction

/-- The bytes an instruction begins with, as they are written. -/
def words : Instruction → List (List Char)
  | .selectCharset | .text _ none | .loadImage _ => []
  | .reset => Command.reset.arguments
  | .pageMode => Command.pageMode.arguments
  | .setAlignment align => Command.align.arguments ++ [hexText align.operand]
  | .setBold bold => Command.bold.arguments ++ [hexText (boldOperand bold)]
  | .setFontSize size | .text _ (some size) => Command.size.arguments ++ [hexText size.operand]
  | .feed dots => Command.feed.arguments ++ [dotsText dots]
  | .retract dots => Command.retract.arguments ++ [dotsText dots]
  | .feedAndCut dots =>
    Command.feed.arguments ++ [dotsText dots, hexText Command.group, hexText Command.cut, cutMode]

/-- The call whose result an instruction sends after its bytes. -/
def inner? : Instruction → Option Expr
  | .text literal _ => some literal.encoding
  | .loadImage file => some (fileReading file)
  | _ => none

/-- The arguments of the call that an instruction is. -/
def arguments (i : Instruction) : List Expr := i.words.map .word ++ i.inner?.toList

/-- The text an instruction carries between quotes. -/
def payload : Instruction → List Char
  | .text literal _ => literal.body
  | .loadImage file => file
  | _ => []

/-- The lexemes of the statement of an instruction. -/
def written (i : Instruction) : List Lexeme :=
  (Expr.call [outputCall] i.arguments).written ++ [.semicolon]

theorem laidOut_written (i : Instruction) :
    laidOut i.written = outputText (i.arguments.map fun argument => laidOut argument.written) := by
  rw [written, laidOut_append, laidOut_call]
  rfl

/-- A statement is its lexemes, laid out. -/
theorem statement_eq {i : Instruction} (h : i ≠ .selectCharset) :
    i.statement = laidOut i.written := by
  rw [laidOut_written, arguments, List.map_append, map_laidOut_word]
  cases i with
  | selectCharset => exact absurd rfl h
  | text literal size =>
      rw [inner?, Option.toList_some, List.map_singleton, literal.laidOut_encoding]
      cases size with
      | none => rfl
      | some size => rfl
  | loadImage file =>
      rw [inner?, Option.toList_some, List.map_singleton, laidOut_fileReading]
      rfl
  | _ => rfl

/-! ## What stands in a statement -/

theorem isWord_of_mem_words {i : Instruction} : ∀ spelling ∈ i.words, IsWord spelling := by
  have hcut : IsWord cutMode := by decide
  cases i with
  | text literal size =>
      cases size with
      | none => simp [words]
      | some size => simp [words, Command.arguments, isWord_hexText]
  | _ => simp [words, Command.arguments, isWord_hexText, isWord_dotsText, hcut]

/-- The calls inside a statement carry its payload and no other text. -/
theorem carries_of_mem_inner {i : Instruction} {e : Expr} (h : i.inner? = some e) :
    ∀ lexeme ∈ e.written, lexeme.Carries i.payload := by
  have htext : ∀ body flag, ∀ lexeme ∈ (Expr.text body flag).written, lexeme.Carries body := by
    intro body flag lexeme hmem
    rw [Expr.written, List.mem_singleton] at hmem
    exact Or.inr ⟨flag, hmem⟩
  cases i with
  | text literal size =>
      obtain rfl : literal.encoding = e := by simpa [inner?] using h
      apply carries_of_mem_call (by decide)
      intro argument hargument
      obtain rfl := List.mem_singleton.mp hargument
      exact htext literal.body literal.interpolated
  | loadImage file =>
      obtain rfl : fileReading file = e := by simpa [inner?] using h
      have hfolder : ∀ lexeme ∈ (Expr.path (imageFolder.splitOn '.')).written,
          lexeme.Plain := by
        rw [Expr.written]
        exact forall_mem_writtenPath (by decide)
      apply carries_of_mem_call (by decide)
      intro argument hargument
      obtain rfl := List.mem_singleton.mp hargument
      apply carries_of_mem_call (by decide)
      intro argument hargument
      simp only [List.mem_cons, List.not_mem_nil, or_false] at hargument
      rcases hargument with rfl | rfl
      · intro lexeme hmem
        exact Or.inl (hfolder lexeme hmem)
      · exact htext file false
  | _ => simp [inner?] at h

theorem fits_of_inner {i : Instruction} {e : Expr} (h : i.inner? = some e) :
    e.Fits maxNesting := by
  have hencoder : encoderCall.splitOn '.' ≠ [] := by decide
  have hreader : readerCall.splitOn '.' ≠ [] := by decide
  have hjoin : joinCall.splitOn '.' ≠ [] := by decide
  have hfolder : 2 ≤ (imageFolder.splitOn '.').length := by decide
  cases i with
  | text literal size =>
      obtain rfl : literal.encoding = e := by simpa [inner?] using h
      have hbody : (Expr.text literal.body literal.interpolated).Fits 63 := .text 62 _ _
      exact .call hencoder (by simpa using hbody)
  | loadImage file =>
      obtain rfl : fileReading file = e := by simpa [inner?] using h
      have harguments : (Expr.path (imageFolder.splitOn '.')).Fits 62 ∧
          (Expr.text file false).Fits 62 := ⟨.path 61 hfolder, .text 61 file false⟩
      have hjoined : (Expr.call (joinCall.splitOn '.')
          [.path (imageFolder.splitOn '.'), .text file false]).Fits 63 :=
        .call hjoin (by simpa using harguments)
      exact .call hreader (by simpa using hjoined)
  | _ => simp [inner?] at h

/-- A statement carries its payload and no other text. -/
theorem carries_of_mem_written {i : Instruction} {lexeme : Lexeme} (h : lexeme ∈ i.written) :
    lexeme.Carries i.payload := by
  have houtput : ∀ segment ∈ [outputCall], IsWord segment := by decide
  have harguments : ∀ argument ∈ i.arguments, ∀ lexeme ∈ argument.written,
      lexeme.Carries i.payload := by
    intro argument hargument
    rcases List.mem_append.mp hargument with hword | hinner
    · obtain ⟨spelling, hspelling, rfl⟩ := List.mem_map.mp hword
      intro lexeme hmem
      rw [Expr.written, List.mem_singleton] at hmem
      subst hmem
      exact Or.inl (isWord_of_mem_words spelling hspelling)
    · exact carries_of_mem_inner (Option.mem_toList.mp hinner)
  rcases List.mem_append.mp h with hcall | hend
  · exact carries_of_mem_call houtput harguments lexeme hcall
  · obtain rfl := List.mem_singleton.mp hend
    exact Or.inl trivial

theorem wordsEnd_written (i : Instruction) : wordsEnd i.written = true := by
  cases i with
  | text literal size => cases size <;> rfl
  | _ => rfl

theorem legible_of_mem_written {i : Instruction} (hpayload : isQuotable i.payload = true) :
    ∀ lexeme ∈ i.written, lexeme.Legible := by
  intro lexeme hmem
  rcases carries_of_mem_written hmem with hplain | ⟨flag, rfl⟩
  · exact hplain.legible
  · exact hpayload

/-- The lexer reads a statement as it is written. -/
theorem lexemes_statement {i : Instruction} (h : i ≠ .selectCharset)
    (hpayload : isQuotable i.payload = true) : lexemes i.statement = i.written := by
  have hread := lexemes_laidOut (legible_of_mem_written hpayload) (wordsEnd_written i) []
  rw [List.append_nil, lexemes_nil, List.append_nil] at hread
  rw [statement_eq h, hread]

/-! ## The code of a line -/

/-- A remark is set off by blanks. -/
theorem remark_cases (i : Instruction) :
    i.remark = [] ∨ ∃ k note, i.remark = List.replicate k ' ' ++ '/' :: '/' :: note := by
  cases i with
  | selectCharset | feed | text => exact Or.inl rfl
  | setBold bold => cases bold <;> exact Or.inr ⟨1, _, rfl⟩
  | setFontSize size =>
      cases size with
      | normal => exact Or.inr ⟨1, _, rfl⟩
      | large => exact Or.inl rfl
  | feedAndCut dots => exact Or.inr ⟨1, _, rfl⟩
  | retract dots => exact Or.inr ⟨3, _, rfl⟩
  | reset | pageMode | setAlignment | loadImage => exact Or.inr ⟨2, _, rfl⟩

/-- The code of the line of an instruction is its statement. -/
theorem codePart?_line {i : Instruction} (h : i ≠ .selectCharset)
    (hpayload : Text.occurs remarkMark i.payload = false) :
    codePart? i.line = some i.statement := by
  have hremark : Text.occurs remarkMark i.statement = false := by
    rw [statement_eq h]
    exact not_occurs_remarkMark_laidOut hpayload fun lexeme hmem => carries_of_mem_written hmem
  obtain ⟨middle, hmiddle⟩ : ∃ middle, i.statement = 'B' :: middle ++ [';'] := by
    rw [statement_eq h, laidOut_written]
    exact ⟨_, rfl⟩
  rw [hmiddle] at hremark
  rw [line, hmiddle]
  rcases remark_cases i with hnone | ⟨k, note, hnote⟩
  · rw [hnone, List.append_nil]
    exact codePart?_of_statement (by decide) (by decide) hremark
  · rw [hnote]
    exact codePart?_of_remark (by decide) (by decide) (by decide) k hremark note

end Instruction

end TicketPress
