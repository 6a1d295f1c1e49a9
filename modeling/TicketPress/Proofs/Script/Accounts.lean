import Mathlib.Data.List.Forall2
import TicketPress.Proofs.Bindings
import TicketPress.Proofs.Script.Inverse
import TicketPress.Proofs.Script.Run
import TicketPress.Proofs.Text.Bytes

/-!
# Every line is accounted for

A line of a script comes to one thing: it is passed over, it gives an item, it
gives a diagnostic, or it changes the printer in silence. `Account` names these
four, and `Account.IsOf` says which lines have which. The items and the
diagnostics of a script are those of its accounts, in the order of its lines,
so nothing is counted twice and nothing gets lost.

A diagnostic knows its line by an offset in bytes and by a number. Both are
counted up from line to line; `PlacedLine.StandsIn` says what they mean in the
script itself.
-/

namespace TicketPress

/-! ## Lines in their places -/

/-- A line stands in the script between line feeds or the ends of the script,
with as many bytes before it as its offset and with one line feed less before
it than its number. -/
structure PlacedLine.StandsIn (line : PlacedLine) (script : List Char) : Prop where
  whole : '\n' ∉ line.text
  placed : ∃ before after, script = before ++ line.text ++ after ∧
    (before = [] ∨ before.getLast? = some '\n') ∧ (after = [] ∨ after.head? = some '\n') ∧
    line.start = Text.byteLength before ∧ line.number = before.count '\n' + 1

/-- Lines that are placed after a text that ended its last line stand in what
comes out when they are joined. -/
theorem standsIn_of_mem_placeFrom {lines : List (List Char)} (hlines : ∀ text ∈ lines, '\n' ∉ text)
    (before : List Char) (hbefore : before = [] ∨ before.getLast? = some '\n') :
    ∀ line ∈ placeFrom (before.count '\n' + 1) (Text.byteLength before) lines,
      line.StandsIn (before ++ ['\n'].intercalate lines) := by
  induction lines generalizing before with
  | nil => simp [placeFrom]
  | cons first rest ih =>
      have hfirst : '\n' ∉ first := hlines first (by simp)
      have hrest : ∀ text ∈ rest, '\n' ∉ text := fun text hmem => hlines text (by simp [hmem])
      intro line hline
      rw [placeFrom, List.mem_cons] at hline
      cases rest with
      | nil =>
          obtain rfl | hline := hline
          · exact ⟨hfirst, before, [], by simp, hbefore, Or.inl rfl, rfl, rfl⟩
          · simp [placeFrom] at hline
      | cons next rest =>
          rw [List.intercalate_cons_cons]
          obtain rfl | hline := hline
          · refine ⟨hfirst, before, '\n' :: ['\n'].intercalate (next :: rest), by simp, hbefore,
              Or.inr rfl, rfl, rfl⟩
          · -- The next line is placed after this one and its line feed.
            have hend : (before ++ first ++ ['\n']).getLast? = some '\n' := by simp
            have hcount : (before ++ first ++ ['\n']).count '\n' = before.count '\n' + 1 := by
              simp [List.count_eq_zero.mpr hfirst]
            have hbytes : Text.byteLength (before ++ first ++ ['\n']) =
                Text.byteLength before + Text.byteLength first + 1 := by
              simp [show '\n'.utf8Size = 1 from rfl, Nat.add_assoc]
            have hstands := ih hrest (before ++ first ++ ['\n']) (Or.inr hend)
            rw [hcount, hbytes] at hstands
            simpa [Nat.add_assoc] using hstands line hline

/-- The lines of a script stand in it. -/
theorem standsIn_of_mem_placedLines {script : List Char} {line : PlacedLine}
    (h : line ∈ placedLines script) : line.StandsIn script := by
  have hlines : ∀ text ∈ Text.pieces script, '\n' ∉ text :=
    fun text hmem => Text.lineFeed_not_mem_of_mem_pieces hmem
  have hstands := standsIn_of_mem_placeFrom hlines [] (Or.inl rfl) line h
  rwa [List.nil_append, Text.intercalate_pieces] at hstands

/-- What follows from the place of a line for its span: it lies in the script,
and it starts and ends on boundaries between characters. -/
theorem PlacedLine.StandsIn.span {line : PlacedLine} {script : String}
    (h : line.StandsIn script.toList) :
    line.span.start ≤ line.span.stop ∧ line.span.stop ≤ script.utf8ByteSize ∧
      String.Pos.Raw.IsValid script ⟨line.span.start⟩ ∧
      String.Pos.Raw.IsValid script ⟨line.span.stop⟩ := by
  obtain ⟨-, before, after, hscript, -, -, hstart, -⟩ := h
  have hstop : line.span.stop = Text.byteLength (before ++ line.text) := by
    rw [Text.byteLength_append, ← hstart]
    rfl
  have hsize : script.utf8ByteSize = Text.byteLength (before ++ line.text) + Text.byteLength after := by
    rw [← Text.byteLength_append, ← hscript, Text.byteLength_eq, String.ofList_toList]
  refine ⟨Nat.le_add_right _ _, by omega, ?_, ?_⟩
  · show String.Pos.Raw.IsValid script ⟨line.start⟩
    rw [hstart]
    exact Text.isValid_byteLength (by rw [hscript, List.append_assoc])
  · rw [hstop]
    exact Text.isValid_byteLength hscript

/-- A line ends before the next one starts. -/
theorem pairwise_placeFrom (number start : Nat) (lines : List (List Char)) :
    (∀ line ∈ placeFrom number start lines, start ≤ line.start) ∧
    (placeFrom number start lines).Pairwise fun a b => a.span.stop < b.span.start := by
  induction lines generalizing number start with
  | nil => simp [placeFrom]
  | cons first rest ih =>
      obtain ⟨hafter, hrest⟩ := ih (number + 1) (start + Text.byteLength first + 1)
      constructor
      · intro line hline
        rw [placeFrom, List.mem_cons] at hline
        rcases hline with rfl | hline
        · exact Nat.le_refl start
        · have hlater := hafter line hline
          omega
      · rw [placeFrom, List.pairwise_cons]
        refine ⟨fun line hline => ?_, hrest⟩
        have hlater := hafter line hline
        simp only [PlacedLine.span]
        omega

/-! ## Accounts -/

/-- An instruction that changes the state of the printer and prints nothing. -/
def Instruction.isSilent : Instruction → Bool
  | .reset | .pageMode | .setAlignment _ | .setBold _ | .setFontSize _ => true
  | _ => false

/-- A diagnostic about a line: it has one of the codes for lines, its span is
the line, and its context gives the number of the line. -/
structure Diagnostic.IsAbout (diagnostic : Diagnostic) (line : PlacedLine) : Prop where
  code : ∃ code : Code, code ≠ .noElements ∧ diagnostic.id = code.id
  span : diagnostic.span = some line.span
  number : diagnostic.contextOf? "line" = some (String.ofList (Decimal.write line.number))

/-- What a line of a script comes to. -/
inductive Account where
  | passedOver
  | item (item : Item)
  | diagnostic (diagnostic : Diagnostic)
  | silent (change : Instruction)

namespace Account

/-- The item of an account. -/
def item? : Account → Option Item
  | .item found => some found
  | _ => none

/-- The diagnostic of an account. -/
def diagnostic? : Account → Option Diagnostic
  | .diagnostic given => some given
  | _ => none

/-- Which lines have an account. A line is passed over if it does not call the
printer. Otherwise it gives the item of the instruction it is recognised as,
changes the state by that instruction, or, if it is none or the final cut, gets
a diagnostic. -/
def IsOf (line : PlacedLine) : Account → Prop
  | .passedOver => liveCode? line.text = none
  | .item found => ∃ code i, liveCode? line.text = some code ∧ recognize code = .instruction i ∧
      i.content? = some found.content
  | .silent i => ∃ code, liveCode? line.text = some code ∧ recognize code = .instruction i ∧
      i.isSilent = true
  | .diagnostic given => given.IsAbout line ∧ ∃ code, liveCode? line.text = some code ∧
      ∀ i, recognize code = .instruction i → ∃ dots, i = .feedAndCut dots

end Account

/-! ## The account of a line -/

/-- A diagnostic about a line is not the note about the whole script. -/
theorem Diagnostic.IsAbout.id_ne {diagnostic : Diagnostic} {line : PlacedLine}
    (h : diagnostic.IsAbout line) : diagnostic.id ≠ Code.noElements.id := by
  obtain ⟨code, hcode, hid⟩ := h.code
  rw [hid]
  cases code with
  | noElements => exact absurd rfl hcode
  | _ => decide

/-- A diagnostic about a line is one, whatever else its context says. -/
theorem isAbout_diagnostic (line : PlacedLine) (code : Code) (hcode : code ≠ .noElements)
    (severity : Severity) (message : String) {more : List (String × String)}
    (hmore : more = [] ∨ ∃ name text, name ≠ "line" ∧ more = [(name, text)]) :
    (line.diagnostic code severity message more).IsAbout line where
  code := ⟨code, hcode, rfl⟩
  span := rfl
  number := by
    show (line.context more).find? "line" = _
    unfold PlacedLine.context Bindings.ofList
    rcases hmore with rfl | ⟨name, text, hname, rfl⟩
    · simp [Bindings.find?_insert]
    · simp [Bindings.find?_insert, Ne.symm hname]

/-- A line that is recognised as something has an account with its item and its
diagnostic. -/
theorem exists_account (printer : Printer) (line : PlacedLine) {code : List Char}
    (h : liveCode? line.text = some code) : ∃ account : Account, account.IsOf line ∧
      account.item? = (recognize code).item? ((recognize code).printerAfter printer) ∧
      account.diagnostic? = (recognize code).diagnostic? line := by
  have hdiagnosed : ∀ d : Diagnostic, d.IsAbout line →
      (∀ i, recognize code = .instruction i → ∃ dots, i = .feedAndCut dots) →
      (Account.diagnostic d).IsOf line := fun d hd hnone => ⟨hd, code, h, hnone⟩
  cases hread : recognize code with
  | instruction i =>
      have hsilent : i.isSilent = true → (Account.silent i).IsOf line :=
        fun hi => ⟨code, h, hread, hi⟩
      have hitem : ∀ item : Item, i.content? = some item.content → (Account.item item).IsOf line :=
        fun item hcontent => ⟨code, i, h, hread, hcontent⟩
      cases i with
      | selectCharset => exact absurd hread (recognize_ne_selectCharset code)
      | reset | pageMode | setAlignment | setBold | setFontSize =>
          exact ⟨.silent _, hsilent rfl, rfl, rfl⟩
      | feed | retract | text | loadImage => exact ⟨.item _, hitem _ rfl, rfl, rfl⟩
      | feedAndCut dots =>
          have habout := isAbout_diagnostic line .trailerSkipped (by decide) .note
            "feed-and-cut trailer skipped" (Or.inl rfl)
          refine ⟨.diagnostic _, hdiagnosed _ habout fun i hi => ?_, rfl, rfl⟩
          exact ⟨dots, by simpa [hread] using hi.symm⟩
  | incomplete command =>
      have habout := isAbout_diagnostic line .incompleteInstruction (by decide) .warning
        (command.name ++ " is missing its operand byte")
        (Or.inr ⟨"opcode", command.name, by decide, rfl⟩)
      exact ⟨.diagnostic _, hdiagnosed _ habout (by simp [hread]), rfl, rfl⟩
  | invalidNumber spelling =>
      have habout := isAbout_diagnostic line .invalidNumber (by decide) .warning
        ("'" ++ String.ofList spelling ++ "' is not a decimal or 0x-hex integer")
        (Or.inr ⟨"token", String.ofList spelling, by decide, rfl⟩)
      exact ⟨.diagnostic _, hdiagnosed _ habout (by simp [hread]), rfl, rfl⟩
  | unrecognized bytes =>
      have hmore : bytes.toList.map (fun bytes => ("bytes", bytesText bytes)) = [] ∨
          ∃ name text, name ≠ "line" ∧
            bytes.toList.map (fun bytes => ("bytes", bytesText bytes)) = [(name, text)] := by
        cases bytes with
        | none => exact Or.inl rfl
        | some bytes => exact Or.inr ⟨"bytes", bytesText bytes, by decide, rfl⟩
      have habout := isAbout_diagnostic line .unrecognizedInstruction (by decide) .note
        "unrecognized instruction, line ignored" hmore
      exact ⟨.diagnostic _, hdiagnosed _ habout (by simp [hread]), rfl, rfl⟩

/-- The run over the lines keeps one account per line. -/
theorem exists_accounts (printer : Printer) (lines : List PlacedLine) :
    ∃ accounts : List Account, List.Forall₂ (fun line account => account.IsOf line) lines accounts ∧
      (recoverFrom printer lines).items = accounts.filterMap Account.item? ∧
      (recoverFrom printer lines).diagnostics = accounts.filterMap Account.diagnostic? := by
  induction lines generalizing printer with
  | nil => exact ⟨[], .nil, rfl, rfl⟩
  | cons line lines ih =>
      cases hlive : liveCode? line.text with
      | none =>
          obtain ⟨accounts, heach, hitems, hdiagnostics⟩ := ih printer
          refine ⟨.passedOver :: accounts, .cons hlive heach, ?_, ?_⟩
          · simp only [recoverFrom, hlive, Option.map_none, hitems]
            rfl
          · simp only [recoverFrom, hlive, Option.map_none, hdiagnostics]
            rfl
      | some code =>
          obtain ⟨accounts, heach, hitems, hdiagnostics⟩ :=
            ih ((recognize code).printerAfter printer)
          obtain ⟨account, haccount, hitem, hdiagnostic⟩ := exists_account printer line hlive
          refine ⟨account :: accounts, .cons haccount heach, ?_, ?_⟩
          · simp only [recoverFrom, hlive, Option.map_some, hitems, ← hitem]
            cases account <;> rfl
          · simp only [recoverFrom, hlive, Option.map_some, hdiagnostics, ← hdiagnostic]
            cases account <;> rfl

/-! ## The accounts of a script -/

/-- One account for every line of a script in its place, which together are
what is recovered from it. The note about a script without elements is no
line's; it comes last. -/
structure AccountedBy (script : List Char) (found : Recovery) (accounts : List Account) : Prop where
  each : List.Forall₂ (fun line account => line.StandsIn script ∧ account.IsOf line)
    (placedLines script) accounts
  items : found.items = accounts.filterMap Account.item?
  diagnostics : found.diagnostics = accounts.filterMap Account.diagnostic? ++
    if found.items = [] then [noElementsNote] else []

theorem exists_accountedBy (script : List Char) :
    ∃ accounts, AccountedBy script (recover script) accounts := by
  obtain ⟨accounts, heach, hitems, hdiagnostics⟩ :=
    exists_accounts .initial (placedLines script)
  have hstands : ∀ line ∈ placedLines script, line.StandsIn script :=
    fun line hline => standsIn_of_mem_placedLines hline
  have hboth : List.Forall₂ (fun line account => line.StandsIn script ∧ account.IsOf line)
      (placedLines script) accounts := by
    rw [List.forall₂_and_left]
    exact ⟨hstands, heach⟩
  refine ⟨accounts, hboth, ?_, ?_⟩
  · unfold recover
    dsimp only
    split <;> exact hitems
  · unfold recover
    dsimp only
    split
    · exact congrArg (· ++ [noElementsNote]) hdiagnostics
    · rw [List.append_nil]
      exact hdiagnostics

/-- The diagnostics of accounts are about lines, and their spans are spans of
these lines in the same order. -/
theorem diagnostics_of_forall₂ {lines : List PlacedLine} {accounts : List Account}
    (h : List.Forall₂ (fun line account => account.IsOf line) lines accounts) :
    (∀ d ∈ accounts.filterMap Account.diagnostic?, ∃ line ∈ lines, d.IsAbout line) ∧
    ((accounts.filterMap Account.diagnostic?).filterMap Diagnostic.span).Sublist
      (lines.map PlacedLine.span) := by
  induction h with
  | nil => exact ⟨by simp, by simp⟩
  | @cons line account lines accounts hline _ ih =>
      have hskip : ∀ d ∈ accounts.filterMap Account.diagnostic?,
          ∃ other ∈ line :: lines, d.IsAbout other := by
        intro d hd
        obtain ⟨other, hother, habout⟩ := ih.1 d hd
        exact ⟨other, by simp [hother], habout⟩
      cases account with
      | diagnostic given =>
          have habout : given.IsAbout line := hline.1
          have hhead : (Account.diagnostic given :: accounts).filterMap Account.diagnostic? =
              given :: accounts.filterMap Account.diagnostic? := rfl
          rw [hhead]
          constructor
          · intro d hd
            rw [List.mem_cons] at hd
            rcases hd with rfl | hd
            · exact ⟨line, by simp, habout⟩
            · exact hskip d hd
          · rw [List.filterMap_cons_some habout.span, List.map_cons]
            exact ih.2.cons_cons line.span
      | _ => exact ⟨hskip, ih.2.cons line.span⟩

/-- The accounts without what they say of places. -/
theorem AccountedBy.isOf {script : List Char} {found : Recovery} {accounts : List Account}
    (h : AccountedBy script found accounts) :
    List.Forall₂ (fun line account => account.IsOf line) (placedLines script) accounts :=
  h.each.imp fun _ _ hboth => hboth.2

/-- A diagnostic is about a line of the script or is the note about all of it. -/
theorem AccountedBy.about_or_note {script : List Char} {found : Recovery}
    {accounts : List Account} (h : AccountedBy script found accounts) {d : Diagnostic}
    (hd : d ∈ found.diagnostics) :
    (∃ line ∈ placedLines script, d.IsAbout line) ∨ d = noElementsNote := by
  rw [h.diagnostics, List.mem_append] at hd
  rcases hd with hd | hd
  · exact Or.inl ((diagnostics_of_forall₂ h.isOf).1 d hd)
  · split at hd
    · exact Or.inr (List.mem_singleton.mp hd)
    · exact absurd hd List.not_mem_nil

/-- Every line of a script has one account, and together the accounts are what
is recovered. A line has something to account for if its code, which stands
between blanks and before the first remark, calls the printer. The diagnostics
with a span come in the order of their lines, the span of each is its line and
lies on boundaries of the script, and the only one without a span is the note
that there is no element. -/
theorem recover_accounts (script : String) :
    (placedLines script.toList).map PlacedLine.text = Text.pieces script.toList ∧
    (∀ line code, (codePart? line = some code ↔ IsCodeOf line code) ∧
      (liveCode? line = some code ↔ codePart? line = some code ∧ outputCall <:+: code)) ∧
    (∃ accounts, AccountedBy script.toList (recover script.toList) accounts) ∧
    ((recover script.toList).diagnostics.filterMap Diagnostic.span).Pairwise
      (fun a b => a.stop < b.start) ∧
    (∀ d ∈ (recover script.toList).diagnostics, ∀ span, d.span = some span →
      (∃ line ∈ placedLines script.toList, d.IsAbout line) ∧
      span.start ≤ span.stop ∧ span.stop ≤ script.utf8ByteSize ∧
      String.Pos.Raw.IsValid script ⟨span.start⟩ ∧ String.Pos.Raw.IsValid script ⟨span.stop⟩) ∧
    (∀ d ∈ (recover script.toList).diagnostics, d.id = Code.noElements.id ↔ d.span = none) ∧
    (recover script.toList).diagnostics.filter (fun d => d.id == Code.noElements.id) =
      (if (recover script.toList).items = [] then [noElementsNote] else []) := by
  obtain ⟨accounts, haccounts⟩ := exists_accountedBy script.toList
  obtain ⟨habout, hspans⟩ := diagnostics_of_forall₂ haccounts.isOf
  have hordered : ((placedLines script.toList).map PlacedLine.span).Pairwise
      (fun a b => a.stop < b.start) :=
    List.pairwise_map.mpr (pairwise_placeFrom 1 0 (Text.pieces script.toList)).2
  refine ⟨map_text_placedLines script.toList,
    fun _ _ => ⟨codePart?_eq_some_iff_isCodeOf, liveCode?_eq_some_iff⟩,
    ⟨accounts, haccounts⟩, ?_, ?_, ?_, ?_⟩
  · have hnone : (if (recover script.toList).items = [] then [noElementsNote] else []).filterMap
        Diagnostic.span = [] := by
      split <;> rfl
    rw [haccounts.diagnostics, List.filterMap_append, hnone, List.append_nil]
    exact hordered.sublist hspans
  · intro d hd span hspan
    obtain ⟨line, hline, hd⟩ | rfl := haccounts.about_or_note hd
    · obtain rfl : line.span = span := by simpa [hd.span] using hspan
      exact ⟨⟨line, hline, hd⟩, (standsIn_of_mem_placedLines hline).span⟩
    · simp [noElementsNote] at hspan
  · intro d hd
    obtain ⟨line, -, hline⟩ | rfl := haccounts.about_or_note hd
    · exact ⟨fun hid => absurd hid hline.id_ne, fun hspan => by simp [hline.span] at hspan⟩
    · exact ⟨fun _ => rfl, fun _ => rfl⟩
  · have hlines : (accounts.filterMap Account.diagnostic?).filter
        (fun d => d.id == Code.noElements.id) = [] := by
      rw [List.filter_eq_nil_iff]
      intro d hd
      obtain ⟨line, -, hline⟩ := habout d hd
      simpa using hline.id_ne
    rw [haccounts.diagnostics, List.filter_append, hlines, List.nil_append]
    split <;> rfl

end TicketPress
