import TicketPress.Proofs.Script.SafeReading
import TicketPress.Proofs.Text.Pieces

/-!
# Reading a line undoes writing it

Every instruction that can be written safely is read back from its line, over
the whole vocabulary and not only over the lines a layout is written with. A
line may be spelled in many ways, but what it gives is such an instruction, so
writing it down once more and reading it again changes nothing.

The instruction that declares the charset stands apart: its line calls nothing
and is never read.
-/

namespace TicketPress

/-! ## What is never read -/

/-- No call declares the charset. -/
theorem Call.recognize_ne_selectCharset (call : Call) :
    call.recognize ≠ .instruction .selectCharset := by
  intro h
  cases hbytes : call.bytes? with
  | some r =>
      rw [Call.recognize, hbytes] at h
      obtain ⟨words, -, hwords⟩ := Option.map_eq_some_iff.mp hbytes
      split at hwords
      · exact (of_ofBytes (hwords.trans h)).1 rfl
      · exact absurd (hwords.trans h) (by simp)
  | none =>
      rcases Call.recognize_cases hbytes with ⟨i, hi, hrecognize⟩ | ⟨-, hrecognize⟩
      · obtain rfl : i = .selectCharset := by simpa [hrecognize] using h
        rcases hi with hsized | hplain | himage
        · obtain ⟨_, _, _, _, _, _, -, -, -, -, -, hi⟩ := Call.of_sizedText? hsized
          simp at hi
        · obtain ⟨_, _, -, -, hi⟩ := Call.of_plainText? hplain
          simp at hi
        · obtain ⟨_, -, hi⟩ := Option.map_eq_some_iff.mp himage
          simp at hi
      · simp [hrecognize] at h

theorem recognize_ne_selectCharset (code : List Char) :
    recognize code ≠ .instruction .selectCharset := by
  unfold recognize
  split
  · rename_i call _
    exact call.recognize_ne_selectCharset
  · split <;> simp

/-! ## Writing and reading -/

/-- The line of a safe instruction is read as the instruction. What any line of
a script is read as is a safe instruction, and its own line is read like the
line it came from. -/
theorem recognize_codePart_line :
    (∀ i : Instruction, i ≠ .selectCharset → i.Safe →
      (codePart? i.line).map recognize = some (.instruction i)) ∧
    (∀ (script line code : List Char) (i : Instruction), line ∈ Text.pieces script →
      liveCode? line = some code → recognize code = .instruction i →
        i ≠ .selectCharset ∧ i.Safe ∧
          (codePart? i.line).map recognize = some (recognize code)) := by
  have hwritten : ∀ i : Instruction, i ≠ .selectCharset → i.Safe →
      (codePart? i.line).map recognize = some (.instruction i) := by
    intro i hi hsafe
    rw [Instruction.codePart?_line hi hsafe.payload.noRemark, Option.map_some,
      Instruction.recognize_statement hi hsafe]
  refine ⟨hwritten, ?_⟩
  intro script line code i hline hcode hread
  have hi : i ≠ .selectCharset := by
    rintro rfl
    exact recognize_ne_selectCharset code hread
  have hsafe : i.Safe :=
    safe_of_liveCode? (Text.lineFeed_not_mem_of_mem_pieces hline) hcode hread
  exact ⟨hi, hsafe, (hwritten i hi hsafe).trans (congrArg some hread.symm)⟩

/-- A text with quotes and backslashes that the host fills in, set together
with the normal size. -/
def quotedGreeting : Instruction := .text ⟨"\\\"hi\\\" {name}\\\\".toList, true⟩ (some .normal)

/-- Another spelling of the same instruction. -/
def respelledCode : List Char :=
  "x = BinaryOut;\tbinaryout( 29,0X21 ,007, big5.getbytes( $\"\\\"hi\\\" {name}\\\\\" ))".toList

/-- A line that holds this code between blanks and a note. -/
def respelledLine : List Char := "  ".toList ++ respelledCode ++ " // BinaryOut".toList

/-- The greeting is read from its own line and from the other one, and what the
other line gives is read from the line that is written for it. -/
theorem recognize_codePart_line_quotedGreeting :
    quotedGreeting ≠ .selectCharset ∧ quotedGreeting.Safe ∧
    (codePart? quotedGreeting.line).map recognize = some (.instruction quotedGreeting) ∧
    respelledLine ∈ Text.pieces respelledLine ∧
    liveCode? respelledLine = some respelledCode ∧
    recognize respelledCode = .instruction quotedGreeting ∧
    (codePart? quotedGreeting.line).map recognize = some (recognize respelledCode) := by
  have hne : quotedGreeting ≠ .selectCharset := by simp [quotedGreeting]
  have hsafe : quotedGreeting.Safe := ⟨by decide, by simp [quotedGreeting]⟩
  have hline : respelledLine ∈ Text.pieces respelledLine := by decide
  have hcode : liveCode? respelledLine = some respelledCode := by decide +kernel
  have hread : recognize respelledCode = .instruction quotedGreeting := by decide +kernel
  have hfirst := recognize_codePart_line.1 quotedGreeting hne hsafe
  have hagain := recognize_codePart_line.2 respelledLine respelledLine respelledCode
    quotedGreeting hline hcode hread
  exact ⟨hne, hagain.2.1, hfirst, hline, hcode, hread, hagain.2.2⟩

end TicketPress
