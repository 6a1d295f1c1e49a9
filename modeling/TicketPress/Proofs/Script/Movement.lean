import TicketPress.Proofs.Script.Places
import TicketPress.Proofs.Script.Word

/-!
# Moving the paper by a number of dots

A line that moves the paper is a call of bytes: the two of the command and the
number of dots. The number may be written in any way a word can be one. What
fits 32 bits becomes a spacing of that height, as far as the height of a spacing
goes; what does not fit is reported and moves nothing. The height is signed and
the number is not, so both ends have to be looked at: the largest height is one
less than the number of dots that the smallest one stands for.

`Movement.exists_spacing` says what becomes of a number,
`Movement.CalledOn.reading` what a line is recognised as, and
`AddsBetween.of_reading` what one line adds to a script. From these follow
`Movement.CalledOn.exists_addsBetween` for numbers that fit and
`Movement.CalledOn.addsBetween_of_le` for those that do not.
-/

namespace TicketPress

/-! ## Heights -/

/-- The two ways to move the paper. -/
inductive Movement where
  | forward
  | back
  deriving Repr, DecidableEq

namespace Movement

/-- The command of a movement. -/
def command : Movement → Command
  | .forward => .feed
  | .back => .retract

/-- The instruction of a movement by a number of dots. -/
def instruction : Movement → UInt32 → Instruction
  | .forward => .feed
  | .back => .retract

/-- The height of a spacing for a number of dots, as far as integers of 32 bits
go. -/
def height : Movement → Nat → Int
  | .forward, dots => min dots (2 ^ 31 - 1)
  | .back, dots => max (-dots) (-2 ^ 31)

theorem height_eq_zero_iff (m : Movement) (dots : Nat) : m.height dots = 0 ↔ dots = 0 := by
  cases m with
  | forward =>
      simp only [height]
      omega
  | back =>
      simp only [height]
      omega

/-- A movement prints a spacing of its height. -/
theorem exists_spacing (m : Movement) (dots : UInt32) : ∃ height : Int32,
    (m.instruction dots).content? = some (.spacing height) ∧
      height.toInt = m.height dots.toNat := by
  cases m with
  | forward =>
      have hlow : (-2 ^ 31 : Int) ≤ min (dots.toNat : Int) (2 ^ 31 - 1) := by omega
      have hhigh : min (dots.toNat : Int) (2 ^ 31 - 1) < 2 ^ 31 := by omega
      refine ⟨feedHeight dots, rfl, ?_⟩
      rw [feedHeight, Int32.toInt_maxValue, Int32.toInt_ofInt_of_le hlow hhigh]
      rfl
  | back =>
      have hlow : (-2 ^ 31 : Int) ≤ max (-(dots.toNat : Int)) (-2 ^ 31) := by omega
      have hhigh : max (-(dots.toNat : Int)) (-2 ^ 31) < 2 ^ 31 := by omega
      refine ⟨retractHeight dots, rfl, ?_⟩
      rw [retractHeight, Int32.toInt_minValue, Int32.toInt_ofInt_of_le hlow hhigh]
      rfl

/-! ## Lines that move the paper -/

/-- The line calls the printer with the two bytes of the movement, an operand and
more words behind it. All of them may be spelled in any way. -/
def CalledOn (m : Movement) (operand : List Char) (more : List (List Char)) (line : List Char) :
    Prop :=
  ∃ code callee lead second, liveCode? line = some code ∧
    findCall outputCall code = some ⟨callee, (lead :: second :: operand :: more).map .word⟩ ∧
    Denotes lead m.command.lead.toNat ∧ Denotes second m.command.code.toNat

/-- With a number as its operand, and numbers behind it that do not make it a
cut, the command is the movement. -/
theorem ofBytes_eq (m : Movement) (dots : UInt32) {bytes : List UInt32}
    (hcut : m = .forward → beginsWithCut bytes = false) :
    Recognition.ofBytes (m.command.lead :: m.command.code :: dots :: bytes) =
      .instruction (m.instruction dots) := by
  apply Recognition.ofBytes_command
  cases m with
  | forward => simp [command, instruction, Command.instruction, hcut rfl]
  | back => rfl

theorem CalledOn.reading {m : Movement} {operand : List Char} {more : List (List Char)}
    {line : List Char} (h : m.CalledOn operand more line) :
    (number? operand = none →
      (liveCode? line).map recognize = some (.invalidNumber operand)) ∧
    ∀ dots bytes, number? operand = some dots → numbers more = .ok bytes →
      (m = .forward → beginsWithCut bytes = false) →
        (liveCode? line).map recognize = some (.instruction (m.instruction dots)) := by
  obtain ⟨code, callee, lead, second, hlive, hcall, hlead, hsecond⟩ := h
  have hleadNumber : number? lead = some m.command.lead := by
    rw [hlead.number?_eq, word?_eq_some_iff]
  have hsecondNumber : number? second = some m.command.code := by
    rw [hsecond.number?_eq, word?_eq_some_iff]
  have hrecognize : (liveCode? line).map recognize =
      some (.ofNumbers (numbers (lead :: second :: operand :: more))) := by
    rw [hlive, Option.map_some, recognize, hcall]
    exact congrArg some (Call.recognize_words callee (List.cons_ne_nil lead _))
  constructor
  · intro hnone
    rw [hrecognize]
    simp only [numbers, hleadNumber, hsecondNumber, hnone]
    rfl
  · intro dots bytes hdots hmore hcut
    have hnumbers : numbers (lead :: second :: operand :: more) =
        .ok (m.command.lead :: m.command.code :: dots :: bytes) := by
      simp only [numbers, hleadNumber, hsecondNumber, hdots, hmore]
      rfl
    rw [hrecognize, hnumbers]
    exact congrArg some (m.ofBytes_eq dots hcut)

end Movement

/-! ### As they are usually written -/

/-- Between commas and before a parenthesis every word ends. -/
theorem wordsEnd_writtenArguments (words : List (List Char)) (rest : List Lexeme) :
    wordsEnd (writtenArguments (words.map .word) ++ .closeParen :: rest) = wordsEnd rest := by
  have hothers : ∀ words : List (List Char), ∀ spelling,
      wordsEnd (.word spelling :: (writtenOthers (words.map .word) ++ .closeParen :: rest)) =
        wordsEnd rest := by
    intro words
    induction words with
    | nil =>
        intro spelling
        simp [writtenOthers, wordsEnd, Lexeme.isWord]
    | cons next words ih =>
        intro spelling
        have hnext := ih next
        simp only [List.map_cons, writtenOthers, Expr.written, List.cons_append,
          List.nil_append] at hnext ⊢
        rw [wordsEnd, wordsEnd, hnext]
        simp [Lexeme.isWord]
  cases words with
  | nil => simp [writtenArguments, wordsEnd, Lexeme.isWord]
  | cons spelling words =>
      simpa [writtenArguments, Expr.written] using hothers words spelling

/-- The statement that sends words to the printer is live, and its call is found
with these words. -/
theorem findCall_outputText {words : List (List Char)} (h : ∀ word ∈ words, IsWord word) :
    liveCode? (outputText words) = some (outputText words) ∧
      findCall outputCall (outputText words) = some ⟨[outputCall], words.map .word⟩ := by
  have houtput : ∀ segment ∈ [outputCall], IsWord segment := by decide
  have hcarries : ∀ lexeme ∈ (Expr.call [outputCall] (words.map .word)).written ++ [.semicolon],
      lexeme.Plain := by
    intro lexeme hmem
    simp only [Expr.written, List.mem_append, List.mem_cons, List.not_mem_nil, or_false] at hmem
    rcases hmem with (hpath | rfl | harguments | rfl) | rfl
    · exact forall_mem_writtenPath houtput lexeme hpath
    · trivial
    · rcases of_mem_writtenArguments harguments with rfl | ⟨argument, hargument, hlexeme⟩
      · trivial
      · obtain ⟨spelling, hspelling, rfl⟩ := List.mem_map.mp hargument
        obtain rfl : lexeme = .word spelling := by simpa [Expr.written] using hlexeme
        exact h spelling hspelling
    · trivial
    · trivial
  have htext : laidOut ((Expr.call [outputCall] (words.map .word)).written ++ [.semicolon]) =
      outputText words := by
    rw [laidOut_append, laidOut_call, map_laidOut_word]
    rfl
  have hwords : wordsEnd ((Expr.call [outputCall] (words.map .word)).written ++ [.semicolon]) =
      true := by
    simpa [Expr.written, writtenPath, wordsEnd, Lexeme.isWord] using
      wordsEnd_writtenArguments words [.semicolon]
  have hlexemes := lexemes_laidOut (fun lexeme hmem => (hcarries lexeme hmem).legible) hwords []
  rw [List.append_nil, lexemes_nil, List.append_nil, htext] at hlexemes
  have hremark : Text.occurs remarkMark (outputText words) = false := by
    have hnone : Text.occurs remarkMark [] = false := rfl
    rw [← htext]
    exact not_occurs_remarkMark_laidOut hnone fun lexeme hmem => Or.inl (hcarries lexeme hmem)
  have hfits : ∀ argument ∈ words.map Expr.word, argument.Fits maxNesting := by
    intro argument hmem
    obtain ⟨spelling, -, rfl⟩ := List.mem_map.mp hmem
    exact .word 63 spelling
  refine ⟨liveCode?_of_codePart? ?_ ⟨_, (List.append_assoc ..).symm⟩,
    findCall_of_written_call hfits hlexemes⟩
  exact codePart?_of_statement (by decide) (by decide) hremark

namespace Movement

/-- A statement of words calls for the movement that its first two are the bytes
of. -/
theorem calledOn_outputText {m : Movement} {lead second operand : List Char}
    {more : List (List Char)} (hlead : Denotes lead m.command.lead.toNat)
    (hsecond : Denotes second m.command.code.toNat) (hoperand : IsWord operand)
    (hmore : ∀ word ∈ more, IsWord word) :
    m.CalledOn operand more (outputText (lead :: second :: operand :: more)) := by
  have hwords : ∀ word ∈ lead :: second :: operand :: more, IsWord word := by
    simpa using ⟨hlead.isWord, hsecond.isWord, hoperand, hmore⟩
  obtain ⟨hlive, hcall⟩ := findCall_outputText hwords
  exact ⟨_, [outputCall], lead, second, hlive, hcall, hlead, hsecond⟩

end Movement

/-! ## A line among others -/

/-- The printer after lines at the beginning of a script. -/
def Printer.afterLines (lines : List PlacedLine) : Printer :=
  Printer.initial.afterReadings (readings (lines.map PlacedLine.text))

/-- Between what its lines before and after one of them give, a script gives so
much for that line: an item, a diagnostic, or none of them. The lines after it
are read as if it was not there. -/
structure AddsBetween (text : List Char) (before after : List PlacedLine)
    (item? : Option Item) (diagnostic? : Option Diagnostic) : Prop where
  items : (recover text).items = (recoverFrom .initial before).items ++
    (item?.toList ++ (recoverFrom (.afterLines before) after).items)
  spanned : (recover text).spanned = (recoverFrom .initial before).diagnostics ++
    (diagnostic?.toList ++ (recoverFrom (.afterLines before) after).diagnostics)

/-- A line that leaves the printer as it is adds the item and the diagnostic of
what it is recognised as. -/
theorem AddsBetween.of_reading {text : List Char} {before after : List PlacedLine}
    {line : PlacedLine} (hplaced : placedLines text = before ++ line :: after) {r : Recognition}
    (hread : (liveCode? line.text).map recognize = some r)
    (hkeeps : ∀ printer, r.printerAfter printer = printer) :
    AddsBetween text before after (r.item? (.afterLines before)) (r.diagnostic? line) := by
  constructor
  · have hlines : Text.pieces text = before.map PlacedLine.text ++
        line.text :: after.map PlacedLine.text := by
      rw [← map_text_placedLines, hplaced, List.map_append, List.map_cons]
    have hitems : (recover text).items = recoverItems text := rfl
    rw [hitems, recoverItems_eq, hlines, readings_append, readings_cons, hread,
      Printer.gather_append, recoverFrom_items, recoverFrom_items, Option.toList_some,
      List.singleton_append, Printer.gather, hkeeps]
    rfl
  · have hline : line.diagnostic? = r.diagnostic? line := by
      rw [PlacedLine.diagnostic?, hread, Option.bind_some]
    rw [spanned_recover, hplaced, recoverFrom_diagnostics, recoverFrom_diagnostics,
      List.filterMap_append, List.filterMap_cons, hline]
    cases r.diagnostic? line <;> rfl

/-! ## Movements of a script -/

/-- What is said about a word of a line that is no number. -/
def PlacedLine.refusal (line : PlacedLine) (word : List Char) : Diagnostic :=
  line.diagnostic .invalidNumber .warning
    ("'" ++ String.ofList word ++ "' is not a decimal or 0x-hex integer")
    [("token", String.ofList word)]

section

variable {m : Movement} {text : List Char} {before after : List PlacedLine} {line : PlacedLine}
  {word : List Char} {more : List (List Char)} {n : Nat}

/-- A movement by more dots than fit is refused. -/
theorem Movement.CalledOn.addsBetween_of_le (h : m.CalledOn word more line.text)
    (hplaced : placedLines text = before ++ line :: after) (hword : Denotes word n)
    (hlarge : 2 ^ 32 ≤ n) : AddsBetween text before after none (some (line.refusal word)) := by
  have hnone : number? word = none := by
    rw [hword.number?_eq, word?, if_neg (by simp only [UInt32.size]; omega)]
  exact AddsBetween.of_reading hplaced (h.reading.1 hnone) fun _ => rfl

/-- A movement by a number of dots that fits gives a spacing. -/
theorem Movement.CalledOn.exists_addsBetween (h : m.CalledOn word more line.text)
    (hplaced : placedLines text = before ++ line :: after) (hword : Denotes word n)
    (hfits : n < 2 ^ 32) {bytes : List UInt32} (hmore : numbers more = .ok bytes)
    (hcut : m = .forward → beginsWithCut bytes = false) :
    ∃ (item : Item) (height : Int32), item.content = .spacing height ∧
      height.toInt = m.height n ∧ AddsBetween text before after (some item) none := by
  obtain ⟨dots, rfl⟩ : ∃ dots : UInt32, dots.toNat = n :=
    ⟨UInt32.ofNat n, UInt32.toNat_ofNat_of_lt hfits⟩
  have hnumber : number? word = some dots := by
    rw [hword.number?_eq, word?_eq_some_iff]
  have hread := h.reading.2 dots bytes hnumber hmore hcut
  have hkeeps : ∀ printer, Recognition.printerAfter printer
      (.instruction (m.instruction dots)) = printer := by
    cases m <;> exact fun _ => rfl
  have hadds := AddsBetween.of_reading hplaced hread hkeeps
  obtain ⟨height, hcontent, hheight⟩ := m.exists_spacing dots
  -- The item has the style of the printer, and there is nothing to say about it.
  have hitem : Recognition.item? (.afterLines before) (.instruction (m.instruction dots)) =
      some ⟨.spacing height, (Printer.afterLines before).alignment,
        (Printer.afterLines before).bold, (Printer.afterLines before).size⟩ := by
    rw [Recognition.item?, Printer.item?, hcontent]
    rfl
  have hsilent : Recognition.diagnostic? line (.instruction (m.instruction dots)) = none := by
    cases m <;> rfl
  rw [hitem, hsilent] at hadds
  exact ⟨_, height, rfl, hheight, hadds⟩

end

end TicketPress
