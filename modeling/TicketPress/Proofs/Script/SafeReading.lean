import TicketPress.Proofs.Script.Recognition
import TicketPress.Script.Recovery

/-!
# What is recognised can be written again

A text of a recognised call stands on its line between quotes that the lexer
found, so it can be put between quotes again. The code of a line has no line
feed and no remark, and neither has a part of it. Hence every instruction a
line gives is safe: `safe_of_liveCode?`.
-/

namespace TicketPress

/-! ## Lexemes of a part -/

theorem exists_of_findAmong? {name : List Char} {list : List Expr} {call : Call}
    (h : findAmong? name list = some call) : ∃ e ∈ list, e.find? name = some call := by
  induction list with
  | nil => simp [findAmong?] at h
  | cons first rest ih =>
      rw [findAmong?, Option.or_eq_some_iff] at h
      rcases h with hfirst | ⟨-, hrest⟩
      · exact ⟨first, by simp, hfirst⟩
      · obtain ⟨e, he, hfind⟩ := ih hrest
        exact ⟨e, by simp [he], hfind⟩

/-- The lexemes of a call inside an expression are among its own. -/
theorem Expr.mem_written_of_find? {name : List Char} {call : Call} {lexeme : Lexeme}
    (hmem : lexeme ∈ (Expr.call call.callee call.arguments).written) :
    ∀ {e : Expr}, e.find? name = some call → lexeme ∈ e.written
  | .call callee arguments, h => by
      rw [Expr.find?] at h
      split at h
      · obtain rfl : Call.mk callee arguments = call := by simpa using h
        exact hmem
      · obtain ⟨e, he, hfind⟩ := exists_of_findAmong? h
        exact mem_written_call he (mem_written_of_find? hmem hfind)
  | .word spelling, h => by simp [Expr.find?] at h
  | .path segments, h => by simp [Expr.find?] at h
  | .text body interpolated, h => by simp [Expr.find?] at h
  termination_by e => e
  decreasing_by
    have hlt := List.sizeOf_lt_of_mem he
    simp only [Expr.call.sizeOf_spec]
    omega

theorem fromCall?_suffix {name : List Char} {list start : List Lexeme}
    (h : fromCall? name list = some start) : start <:+ list := by
  induction list with
  | nil => simp [fromCall?] at h
  | cons lexeme rest ih =>
      rw [fromCall?] at h
      split at h
      · obtain rfl : lexeme :: rest = start := by simpa using h
        exact List.suffix_refl _
      · exact (ih h).trans (List.suffix_cons lexeme rest)

/-- The lexemes of a call that is found stand on the line. -/
theorem mem_lexemes_of_findCall {name line : List Char} {call : Call}
    (h : findCall name line = some call) {lexeme : Lexeme}
    (hmem : lexeme ∈ (Expr.call call.callee call.arguments).written) : lexeme ∈ lexemes line := by
  simp only [findCall, Option.bind_eq_bind, Option.bind_eq_some_iff, Prod.exists] at h
  obtain ⟨start, hstart, e, rest, hread, hcall⟩ := h
  obtain ⟨rfl, -⟩ := written_of_readExpr hread
  cases e with
  | call callee arguments =>
      obtain rfl : Call.mk callee arguments = call := by simpa [Expr.call?] using hcall
      exact (fromCall?_suffix hstart).subset (List.mem_append_left _ hmem)
  | _ => simp [Expr.call?] at hcall

/-! ## Safe instructions -/

/-- The instruction of a command carries no text, and it is not the one that
declares the charset. -/
theorem of_commandInstruction {command : Command} {operands : List UInt32} {i : Instruction}
    (h : command.instruction operands = .ok i) :
    i ≠ .selectCharset ∧ i.payload = [] ∧ ∀ file, i ≠ .loadImage file := by
  cases operands with
  | nil =>
      cases command with
      | reset | pageMode =>
          obtain rfl := Except.ok.inj h
          exact ⟨by simp, rfl, by simp⟩
      | _ => simp [Command.instruction] at h
  | cons n rest =>
      cases command with
      | feed =>
          obtain rfl := Except.ok.inj h
          cases beginsWithCut rest with
          | true => exact ⟨by simp, rfl, by simp⟩
          | false => exact ⟨by simp, rfl, by simp⟩
      | _ =>
          obtain rfl := Except.ok.inj h
          exact ⟨by simp, rfl, by simp⟩

theorem of_ofBytes {bytes : List UInt32} {i : Instruction}
    (h : Recognition.ofBytes bytes = .instruction i) :
    i ≠ .selectCharset ∧ i.payload = [] ∧ ∀ file, i ≠ .loadImage file := by
  have hdecoded : Instruction.ofBytes bytes = .ok i := by
    unfold Recognition.ofBytes at h
    split at h <;> simp_all
  unfold Instruction.ofBytes at hdecoded
  split at hdecoded
  · split at hdecoded
    · exact of_commandInstruction hdecoded
    · simp at hdecoded
  · simp at hdecoded

theorem scriptSafe_of_literal? {e : Expr} {literal : Literal} (h : e.literal? = some literal)
    (htexts : ∀ body flag, .text body flag ∈ e.written → ScriptSafe body) :
    ScriptSafe literal.body := by
  obtain ⟨callee, -, rfl⟩ := Expr.of_literal? h
  exact htexts literal.body literal.interpolated
    (mem_written_call (List.mem_singleton_self _) (by simp [Expr.written]))

/-- A file name that is read from a call is one of its texts. -/
theorem of_fileName? {call : Call} {file : List Char} (h : call.fileName? = some file) :
    file ≠ [] ∧ ∃ flag, Expr.text file flag ∈ call.arguments := by
  unfold Call.fileName? at h
  split at h
  · simp at h
  · split at h
    · rename_i body flag hlast
      obtain ⟨hne, rfl⟩ : ¬ body = [] ∧ body = file := by simpa using h
      exact ⟨hne, flag, List.mem_of_getLast? hlast⟩
    · simp at h

theorem safe_of_image? {call : Call} {i : Instruction} (h : call.image? = some i)
    (htexts : ∀ body flag, .text body flag ∈ (Expr.call call.callee call.arguments).written →
      ScriptSafe body) : i.Safe := by
  obtain ⟨reader, hreader, rfl⟩ := Option.map_eq_some_iff.mp h
  cases hname : (reader.find? joinCall).bind Call.fileName? with
  | none =>
      rw [Option.getD_none]
      exact ⟨scriptSafe_fallbackFile, by simp [fallbackFile]⟩
  | some file =>
      rw [Option.getD_some]
      obtain ⟨join, hjoin, hfile⟩ := Option.bind_eq_some_iff.mp hname
      obtain ⟨hne, flag, hmem⟩ := of_fileName? hfile
      obtain ⟨e, he, hfind⟩ := exists_of_findAmong? hreader
      have hjoined : .text file flag ∈ (Expr.call join.callee join.arguments).written :=
        mem_written_call hmem (by simp [Expr.written])
      have hread : .text file flag ∈ (Expr.call reader.callee reader.arguments).written :=
        Expr.mem_written_of_find? hjoined hjoin
      have hcall : .text file flag ∈ (Expr.call call.callee call.arguments).written :=
        mem_written_call he (Expr.mem_written_of_find? hread hfind)
      exact ⟨htexts file flag hcall, by simpa using hne⟩

/-- A call whose texts are safe is recognised as a safe instruction. -/
theorem Call.safe_of_recognize {call : Call} {i : Instruction}
    (h : call.recognize = .instruction i)
    (htexts : ∀ body flag, .text body flag ∈ (Expr.call call.callee call.arguments).written →
      ScriptSafe body) : i.Safe := by
  cases hbytes : call.bytes? with
  | some r =>
      rw [Call.recognize, hbytes] at h
      obtain ⟨words, -, hwords⟩ := Option.map_eq_some_iff.mp hbytes
      split at hwords
      · obtain ⟨-, hpayload, hfile⟩ := of_ofBytes (hwords.trans h)
        exact Instruction.safe_of_payload_eq_nil hpayload hfile
      · exact absurd (hwords.trans h) (by simp)
  | none =>
      rcases Call.recognize_cases hbytes with ⟨j, hj, hrecognize⟩ | ⟨-, hrecognize⟩
      · obtain rfl : j = i := by simpa [hrecognize] using h
        rcases hj with hsized | hplain | himage
        · obtain ⟨lead, code, size, text, n, literal, harguments, -, -, -, hliteral, rfl⟩ :=
            Call.of_sizedText? hsized
          refine ⟨scriptSafe_of_literal? hliteral fun body flag hmem => htexts body flag ?_,
            by simp⟩
          exact mem_written_call (by simp [harguments]) hmem
        · obtain ⟨text, literal, harguments, hliteral, rfl⟩ := Call.of_plainText? hplain
          refine ⟨scriptSafe_of_literal? hliteral fun body flag hmem => htexts body flag ?_,
            by simp⟩
          exact mem_written_call (by simp [harguments]) hmem
        · exact safe_of_image? himage htexts
      · simp [hrecognize] at h

/-- Code that stays on its line and holds no remark gives safe instructions
only. -/
theorem safe_of_recognize {code : List Char} {i : Instruction} (hline : '\n' ∉ code)
    (hremark : Text.occurs remarkMark code = false) (h : recognize code = .instruction i) :
    i.Safe := by
  unfold recognize at h
  split at h
  · rename_i call hfind
    apply Call.safe_of_recognize h
    intro body flag hmem
    obtain ⟨hquote, hin⟩ := of_text_mem_lexemes (mem_lexemes_of_findCall hfind hmem)
    exact ⟨fun hfeed => hline (hin.subset hfeed), Text.not_occurs_of_infix hremark hin, hquote⟩
  · split at h
    · obtain rfl : Instruction.loadImage fallbackFile.toList = i := by simpa using h
      exact ⟨scriptSafe_fallbackFile, by simp [fallbackFile]⟩
    · simp at h

/-- Every instruction that a line of a script gives is safe. -/
theorem safe_of_liveCode? {line code : List Char} {i : Instruction} (hline : '\n' ∉ line)
    (hcode : liveCode? line = some code) (h : recognize code = .instruction i) : i.Safe := by
  obtain ⟨hpart, -⟩ := liveCode?_eq_some_iff.mp hcode
  exact safe_of_recognize (fun hfeed => hline ((codePart?_isInfix hpart).subset hfeed))
    (not_occurs_remarkMark hpart) h

end TicketPress
