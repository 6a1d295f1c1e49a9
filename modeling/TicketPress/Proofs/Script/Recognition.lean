import Mathlib.Data.Option.Basic
import TicketPress.Proofs.Script.Statement
import TicketPress.Script.Recognition

/-!
# What a line is recognised as

The line of an instruction is recognised as that instruction if the text it
carries is safe: `recognize_line`. The lemmas about recognised calls say the
converse, what a call was that gave a text.
-/

namespace TicketPress

/-! ## Calls -/

/-- On a line that starts with a call all depends on its arguments. -/
theorem findCall_of_lexemes {name line : List Char} {rest : List Lexeme}
    (h : lexemes line = .word name :: .openParen :: rest) :
    findCall name line =
      (readArguments (readExpr maxNesting) rest).map fun read => ⟨[name], read.1⟩ := by
  have hstarts : startsCall name (.word name :: .openParen :: rest) = true := by
    simp [startsCall, Text.sameLetters]
  have hread : readExpr (maxNesting + 1) (.word name :: .openParen :: rest) =
      (readArguments (readExpr maxNesting) rest).map fun read => (.call [name] read.1, read.2) :=
    readExpr_call maxNesting (List.cons_ne_nil name []) rest
  rw [findCall, h, fromCall?, if_pos hstarts]
  simp only [Option.bind_eq_bind, Option.bind_some, hread]
  cases readArguments (readExpr maxNesting) rest with
  | none => rfl
  | some read => rfl

/-- A call that is not nested too deeply is found at the start of a line, with
anything behind it. -/
theorem findCall_of_written_call {name : List Char} {arguments : List Expr}
    (hfits : ∀ argument ∈ arguments, argument.Fits maxNesting) {line : List Char}
    {rest : List Lexeme} (h : lexemes line = (Expr.call [name] arguments).written ++ rest) :
    findCall name line = some ⟨[name], arguments⟩ := by
  have hlexemes : lexemes line = .word name :: .openParen ::
      (writtenArguments arguments ++ .closeParen :: rest) := by
    rw [h, Expr.written]
    simp [writtenPath]
  have hread : readArguments (readExpr maxNesting)
      (writtenArguments arguments ++ .closeParen :: rest) = some (arguments, rest) :=
    readArguments_written hfits
      (fun argument hmem rest hrest => readExpr_written (hfits argument hmem) hrest) rest
  rw [findCall_of_lexemes hlexemes, hread]
  rfl

theorem isNamed_splitOn (name : List Char) : isNamed name (name.splitOn '.') = true := by
  simp [isNamed]

/-! ## Bytes -/

theorem mapM_word?_map_word (words : List (List Char)) :
    (words.map Expr.word).mapM Expr.word? = some words := by
  induction words with
  | nil => rfl
  | cons spelling words ih => simp [Expr.word?, ih]

/-- A call with an argument that is no word is no call of bytes. -/
theorem Call.bytes?_eq_none {callee : List (List Char)} {arguments : List Expr} {e : Expr}
    (hmem : e ∈ arguments) (he : e.word? = none) : (Call.mk callee arguments).bytes? = none := by
  have hwords : arguments.mapM Expr.word? = none := by
    induction arguments with
    | nil => simp at hmem
    | cons first others ih =>
        rw [List.mapM_cons]
        rcases List.mem_cons.mp hmem with rfl | hrest
        · simp [he]
        · cases first.word? <;> simp [ih hrest]
  rw [Call.bytes?, Call.words?, hwords]
  split <;> rfl

/-- The bytes of a command are decoded as the command. -/
theorem Recognition.ofBytes_command {command : Command} {operands : List UInt32}
    {i : Instruction} (h : command.instruction operands = .ok i) :
    Recognition.ofBytes (command.lead :: command.code :: operands) = .instruction i := by
  simp [Recognition.ofBytes, Instruction.ofBytes, h]

/-- What words are recognised as: their numbers, or the first word that is none. -/
def Recognition.ofNumbers : Except (List Char) (List UInt32) → Recognition
  | .ok bytes => .ofBytes bytes
  | .error spelling => .invalidNumber spelling

/-- A call of words is recognised by their numbers. -/
theorem Call.recognize_words (callee : List (List Char)) {words : List (List Char)}
    (h : words ≠ []) :
    (Call.mk callee (words.map .word)).recognize = .ofNumbers (numbers words) := by
  rw [Call.recognize, Call.bytes?, Call.words?, if_neg (by simpa using h), mapM_word?_map_word]
  rfl

/-- A call of the bytes of a command is decoded as the command. -/
theorem Call.recognize_command {callee operandWords : List (List Char)} (command : Command)
    {operands : List UInt32} {i : Instruction} (hnumbers : numbers operandWords = .ok operands)
    (h : command.instruction operands = .ok i) :
    (Call.mk callee ((command.arguments ++ operandWords).map .word)).recognize =
      .instruction i := by
  have hall : numbers (command.arguments ++ operandWords) =
      .ok (command.lead :: command.code :: operands) := by
    simp only [Command.arguments, List.cons_append, List.nil_append, numbers, number?_hexText,
      hnumbers]
    rfl
  rw [Call.recognize_words callee (by simp [Command.arguments]), hall]
  exact Recognition.ofBytes_command h

theorem numbers_nil : numbers [] = .ok [] := rfl

theorem numbers_hexText (n : UInt32) : numbers [hexText n] = .ok [n] := by
  simp only [numbers, number?_hexText]
  rfl

theorem numbers_dotsText (n : UInt32) : numbers [dotsText n] = .ok [n] := by
  simp only [numbers, number?_dotsText]
  rfl

/-! ## Texts and images -/

theorem Literal.literal?_encoding (literal : Literal) :
    literal.encoding.literal? = some literal := by
  simp [Literal.encoding, Expr.literal?, isNamed_splitOn]

theorem Call.sizedText?_of_numbers {lead code size text : Expr} {n : UInt32} {literal : Literal}
    (hlead : lead.number? = some Command.size.lead) (hcode : code.number? = some Command.size.code)
    (hsize : size.number? = some n) (hliteral : text.literal? = some literal)
    (callee : List (List Char)) :
    (Call.mk callee [lead, code, size, text]).sizedText? =
      some (.text literal (some (.ofOperand n))) := by
  unfold Call.sizedText?
  dsimp only
  rw [(Option.guard_eq_some' ()).mpr hlead, (Option.guard_eq_some' ()).mpr hcode, hsize, hliteral]
  rfl

theorem Call.sizedText?_encoding (callee : List (List Char)) (size : FontSize)
    (literal : Literal) :
    (Call.mk callee ((Command.size.arguments ++ [hexText size.operand]).map .word ++
      [literal.encoding])).sizedText? = some (.text literal (some size)) := by
  have hnumber (n : UInt32) : (Expr.word (hexText n)).number? = some n := number?_hexText n
  have hread := Call.sizedText?_of_numbers (hnumber Command.size.lead) (hnumber Command.size.code)
    (hnumber size.operand) literal.literal?_encoding callee
  rw [FontSize.ofOperand_operand] at hread
  exact hread

/-- The first call of a name in a call of that name is the call itself. -/
theorem Expr.find?_of_isNamed {name : List Char} {callee : List (List Char)}
    (h : isNamed name callee = true) (arguments : List Expr) :
    (Expr.call callee arguments).find? name = some ⟨callee, arguments⟩ := by
  rw [Expr.find?, if_pos h]

theorem image?_fileReading {file : List Char} (h : file ≠ []) (callee : List (List Char)) :
    (Call.mk callee [fileReading file]).image? = some (.loadImage file) := by
  have hreader : isNamed joinCall (readerCall.splitOn '.') = false := by decide
  have hfind : findAmong? readerCall [fileReading file] = some ⟨readerCall.splitOn '.',
      [.call (joinCall.splitOn '.') [.path (imageFolder.splitOn '.'), .text file false]]⟩ := by
    rw [findAmong?, fileReading, Expr.find?_of_isNamed (isNamed_splitOn readerCall)]
    rfl
  rw [Call.image?, hfind, Option.map_some, Call.find?, Expr.find?, if_neg (by simp [hreader]),
    findAmong?, Expr.find?_of_isNamed (isNamed_splitOn joinCall)]
  simp [Call.fileName?, h]

/-! ## What a recognised call was -/

theorem Expr.of_literal? {e : Expr} {literal : Literal} (h : e.literal? = some literal) :
    ∃ callee, isNamed encoderCall callee = true ∧
      e = .call callee [.text literal.body literal.interpolated] := by
  unfold Expr.literal? at h
  split at h
  · rename_i callee body interpolated
    obtain ⟨hnamed, rfl⟩ : isNamed encoderCall callee = true ∧
        Literal.mk body interpolated = literal := by simpa using h
    exact ⟨callee, hnamed, rfl⟩
  · exact absurd h (by simp)

theorem Call.of_sizedText? {call : Call} {i : Instruction} (h : call.sizedText? = some i) :
    ∃ lead code size text n literal, call.arguments = [lead, code, size, text] ∧
      lead.number? = some Command.size.lead ∧ code.number? = some Command.size.code ∧
      size.number? = some n ∧ text.literal? = some literal ∧
      i = .text literal (some (.ofOperand n)) := by
  unfold Call.sizedText? at h
  split at h
  · rename_i lead code size text harguments
    obtain ⟨_, hlead, h⟩ := Option.bind_eq_some_iff.mp h
    obtain ⟨_, hcode, h⟩ := Option.bind_eq_some_iff.mp h
    obtain ⟨n, hsize, h⟩ := Option.bind_eq_some_iff.mp h
    obtain ⟨literal, hliteral, h⟩ := Option.bind_eq_some_iff.mp h
    exact ⟨lead, code, size, text, n, literal, harguments, (Option.guard_eq_some' _).mp hlead,
      (Option.guard_eq_some' _).mp hcode, hsize, hliteral, (Option.some.inj h).symm⟩
  · exact absurd h (by simp)

theorem Call.of_plainText? {call : Call} {i : Instruction} (h : call.plainText? = some i) :
    ∃ text literal, call.arguments = [text] ∧ text.literal? = some literal ∧
      i = .text literal none := by
  unfold Call.plainText? at h
  split at h
  · rename_i text harguments
    obtain ⟨literal, hliteral, rfl⟩ := Option.map_eq_some_iff.mp h
    exact ⟨text, literal, harguments, hliteral, rfl⟩
  · exact absurd h (by simp)

/-- A call that is no call of bytes is a text, an image, or nothing. -/
theorem Call.recognize_cases {call : Call} (h : call.bytes? = none) :
    (∃ i, (call.sizedText? = some i ∨ call.plainText? = some i ∨ call.image? = some i) ∧
      call.recognize = .instruction i) ∨
    (call.image? = none ∧ call.recognize = .unrecognized none) := by
  rw [Call.recognize, h]
  cases hsized : call.sizedText? with
  | some i => exact Or.inl ⟨i, by simp, rfl⟩
  | none =>
      cases hplain : call.plainText? with
      | some i => exact Or.inl ⟨i, by simp, rfl⟩
      | none =>
          cases himage : call.image? with
          | some i => exact Or.inl ⟨i, by simp, rfl⟩
          | none => exact Or.inr ⟨rfl, rfl⟩

/-! ## Statements -/

namespace Instruction

/-- An instruction whose line gives it back: the text it carries is safe, and
an image has a file. -/
structure Safe (i : Instruction) : Prop where
  payload : ScriptSafe i.payload
  named : ∀ file, i = .loadImage file → file ≠ []

/-- An instruction that carries no text is safe. -/
theorem safe_of_payload_eq_nil {i : Instruction} (h : i.payload = [])
    (hfile : ∀ file, i ≠ .loadImage file) : i.Safe where
  payload := by
    rw [h]
    decide
  named file hi := absurd hi (hfile file)

/-- The call of an instruction is found with anything behind it. -/
theorem findCall_of_written {i : Instruction} {code : List Char} {rest : List Lexeme}
    (h : lexemes code = (Expr.call [outputCall] i.arguments).written ++ rest) :
    findCall outputCall code = some ⟨[outputCall], i.arguments⟩ := by
  refine findCall_of_written_call (fun argument hmem => ?_) h
  rcases List.mem_append.mp hmem with hword | hinner
  · obtain ⟨spelling, -, rfl⟩ := List.mem_map.mp hword
    exact .word 63 spelling
  · exact fits_of_inner (Option.mem_toList.mp hinner)

/-- The call of a safe instruction is recognised as the instruction. -/
theorem recognize_call {i : Instruction} (h : i ≠ .selectCharset) (hsafe : i.Safe) :
    (Call.mk [outputCall] i.arguments).recognize = .instruction i := by
  cases i with
  | selectCharset => exact absurd rfl h
  | reset => exact Call.recognize_command .reset numbers_nil rfl
  | pageMode => exact Call.recognize_command .pageMode numbers_nil rfl
  | setAlignment align =>
      exact Call.recognize_command .align (numbers_hexText align.operand)
        (by simp [Command.instruction])
  | setBold bold =>
      exact Call.recognize_command .bold (numbers_hexText (boldOperand bold))
        (by simp [Command.instruction])
  | setFontSize size =>
      exact Call.recognize_command .size (numbers_hexText size.operand)
        (by simp [Command.instruction])
  | feed dots => exact Call.recognize_command .feed (numbers_dotsText dots) rfl
  | retract dots => exact Call.recognize_command .retract (numbers_dotsText dots) rfl
  | feedAndCut dots =>
      have hnumbers : numbers [dotsText dots, hexText Command.group, hexText Command.cut, cutMode] =
          .ok [dots, Command.group, Command.cut, 0] := by
        have hcut : number? cutMode = some 0 := by decide
        simp only [numbers, number?_dotsText, number?_hexText, hcut]
        rfl
      exact Call.recognize_command .feed hnumbers rfl
  | text literal size =>
      have hencoding : literal.encoding ∈ (text literal size).arguments := by
        simp [arguments, inner?]
      rw [Call.recognize, Call.bytes?_eq_none hencoding rfl]
      cases size with
      | none => simp [Call.sizedText?, Call.plainText?, arguments, words, inner?,
          literal.literal?_encoding]
      | some size =>
          have hsized := Call.sizedText?_encoding [outputCall] size literal
          simp only [arguments, words, inner?, Option.toList_some, hsized, Option.some_or]
  | loadImage file =>
      have hreading : fileReading file ∈ (loadImage file).arguments := by
        simp [arguments, inner?]
      have himage := image?_fileReading (hsafe.named file rfl) [outputCall]
      have hliteral : (fileReading file).literal? = none := by
        simp [fileReading, Expr.literal?]
      rw [Call.recognize, Call.bytes?_eq_none hreading rfl]
      simp [Call.sizedText?, Call.plainText?, arguments, words, inner?, hliteral, himage]

theorem recognize_of_written {i : Instruction} (h : i ≠ .selectCharset) (hsafe : i.Safe)
    {code : List Char} {rest : List Lexeme}
    (hcode : lexemes code = (Expr.call [outputCall] i.arguments).written ++ rest) :
    recognize code = .instruction i := by
  rw [recognize, findCall_of_written hcode]
  exact recognize_call h hsafe

/-- The statement of a safe instruction is recognised as the instruction. -/
theorem recognize_statement {i : Instruction} (h : i ≠ .selectCharset)
    (hsafe : i.Safe) : recognize i.statement = .instruction i :=
  recognize_of_written h hsafe (lexemes_statement h hsafe.payload.quotable)

/-- The line of a safe instruction is recognised as the instruction. -/
theorem recognize_line {i : Instruction} (h : i ≠ .selectCharset) (hsafe : i.Safe) :
    (liveCode? i.line).map recognize = some (.instruction i) := by
  have hlive : liveCode? i.line = some i.statement := by
    apply liveCode?_of_codePart? (codePart?_line h hsafe.payload.noRemark)
    rw [statement_eq h, laidOut_written]
    exact ⟨_, rfl⟩
  rw [hlive, Option.map_some, recognize_statement h hsafe]

end Instruction

end TicketPress
