import TicketPress.Proofs.Layout.Rewriting
import TicketPress.Proofs.Script.Movement

/-!
# Movements are exact

From the word on a line to the height of a spacing, and from there to the line
that is written for the spacing and to its height once more, no number is
wrapped and none is taken for another one. A number of dots that is too large
for a height is cut to the nearest height when it is read for the first time,
and a number that is too large for a word of 32 bits is refused.
-/

namespace TicketPress

/-- Written as a script once more and read again, the contents stand where they
stood, and the one of the line between them, if it is written at all. -/
theorem AddsBetween.map_content_reread {text : List Char} {before after : List PlacedLine}
    {item? : Option Item} {diagnostic? : Option Diagnostic}
    (h : AddsBetween text before after item? diagnostic?) (fresh : Nat → String) :
    (recoverItems (scriptText (script ((recover text).layout fresh)))).map Item.content =
      writtenContents (recoverFrom .initial before).items ++
        (writtenContents item?.toList ++
          writtenContents (recoverFrom (.afterLines before) after).items) := by
  have hitems : recoverItems text = (recoverFrom .initial before).items ++
      (item?.toList ++ (recoverFrom (.afterLines before) after).items) := h.items
  rw [TicketPress.map_content_reread, hitems, writtenContents_append, writtenContents_append]

/-- The words of lines are the runs of letters, digits and underscores, and a
word is read as a number of 32 bits exactly if it is written for one. On a line
that moves the paper such a word gives one spacing with the height of the
movement; written as a script once more and read again, the spacing stands where
it stood, with the same height, unless this is zero. A word that is written for a
larger number gives no spacing and one diagnostic. In both cases the rest of the
script is read as if the line was not there. Every word can be put on such a
line, whatever the bytes of the command are spelled like. -/
theorem movement_is_exact (word : List Char) :
    (IsWord word ↔ ∃ line, Lexeme.word word ∈ lexemes line) ∧
    (IsWord word →
      (∀ dots : UInt32, number? word = some dots ↔ Denotes word dots.toNat) ∧
      (number? word = none ↔ ∀ n, Denotes word n → 2 ^ 32 ≤ n) ∧
      ∀ (m : Movement) (lead second : List Char), Denotes lead m.command.lead.toNat →
        Denotes second m.command.code.toNat → m.CalledOn word [] (outputText [lead, second, word])) ∧
    ∀ (m : Movement) (text : List Char) (before after : List PlacedLine) (line : PlacedLine)
      (more : List (List Char)) (n : Nat), placedLines text = before ++ line :: after →
      m.CalledOn word more line.text → Denotes word n →
      (2 ^ 32 ≤ n → AddsBetween text before after none (some (line.refusal word))) ∧
      ∀ bytes, n < 2 ^ 32 → numbers more = .ok bytes →
        (m = .forward → beginsWithCut bytes = false) →
        ∃ (item : Item) (height : Int32), item.content = .spacing height ∧
          height.toInt = m.height n ∧ AddsBetween text before after (some item) none ∧
          (n ≠ 0 → ∀ fresh,
            (recoverItems (scriptText (script ((recover text).layout fresh)))).map Item.content =
              writtenContents (recoverFrom .initial before).items ++ .spacing height ::
                writtenContents (recoverFrom (.afterLines before) after).items) := by
  refine ⟨isWord_iff_exists_line, fun hword => ⟨fun _ => number?_eq_some_iff hword,
    number?_eq_none_iff hword, fun m lead second hlead hsecond =>
      Movement.calledOn_outputText hlead hsecond hword (by simp)⟩, ?_⟩
  intro m text before after line more n hplaced hcalled hword
  refine ⟨hcalled.addsBetween_of_le hplaced hword, fun bytes hfits hmore hcut => ?_⟩
  obtain ⟨item, height, hcontent, hheight, hadds⟩ :=
    hcalled.exists_addsBetween hplaced hword hfits hmore hcut
  refine ⟨item, height, hcontent, hheight, hadds, fun hne fresh => ?_⟩
  have hzero : height ≠ 0 := by
    rintro rfl
    rw [Int32.toInt_zero] at hheight
    exact hne ((m.height_eq_zero_iff n).mp hheight.symm)
  have hwritten : writtenContents [item] = [.spacing height] := by
    simp [writtenContents, hcontent, hzero]
  rw [hadds.map_content_reread, Option.toList_some, hwritten, List.singleton_append]

/-- The word for the largest number of 32 bits, with a zero before it. -/
def largestWord : List Char := "0X0ffffFFFF".toList

/-- The word for the number after it. -/
def tooLargeWord : List Char := "4294967296".toList

/-- A movement forward by the largest number. -/
def steepLine : PlacedLine := ⟨1, 0, outputText ["27".toList, "0x4A".toList, largestWord]⟩

/-- A movement back by one that is too large. -/
def tooSteepLine : PlacedLine :=
  ⟨2, 34, outputText ["0x1B".toList, "0075".toList, tooLargeWord]⟩

/-- The script of both. -/
def steepScript : List Char := steepLine.text ++ '\n' :: tooSteepLine.text

/-- The first line gives the largest height, which is kept, and the second one a
diagnostic. -/
theorem movement_of_steepScript :
    (placedLines steepScript = [steepLine, tooSteepLine] ∧ IsWord largestWord ∧
      Denotes largestWord (2 ^ 32 - 1) ∧ Denotes tooLargeWord (2 ^ 32) ∧
      Movement.forward.CalledOn largestWord [] steepLine.text ∧
      Movement.back.CalledOn tooLargeWord [] tooSteepLine.text) ∧
    AddsBetween steepScript [steepLine] [] none (some (tooSteepLine.refusal tooLargeWord)) ∧
    ∃ (item : Item) (height : Int32), item.content = .spacing height ∧
      height.toInt = 2 ^ 31 - 1 ∧ AddsBetween steepScript [] [tooSteepLine] (some item) none ∧
      (recoverItems (scriptText (script ((recover steepScript).layout (freshId 0))))).map
        Item.content = [.spacing height] := by
  have hplaced : placedLines steepScript = [steepLine, tooSteepLine] := by decide +kernel
  have hlargest : IsWord largestWord := by decide
  have htooLarge : IsWord tooLargeWord := by decide
  have hdecimal (word : List Char) (n : Nat) (h : Decimal.read? 10 word = some n) :
      Denotes word n := .decimal ((Decimal.read?_eq_some_iff (by decide)).mp h)
  have hhexadecimal (x : Char) (hmark : x = 'x' ∨ x = 'X') (word : List Char) (n : Nat)
      (h : Decimal.read? 16 word = some n) : Denotes ('0' :: x :: word) n :=
    .hexadecimal hmark ((Decimal.read?_eq_some_iff (by decide)).mp h)
  have hlargestNumber : Denotes largestWord (2 ^ 32 - 1) :=
    hhexadecimal 'X' (by decide) _ _ (by decide)
  have htooLargeNumber : Denotes tooLargeWord (2 ^ 32) := hdecimal _ _ (by decide)
  have hsteep : Movement.forward.CalledOn largestWord [] steepLine.text :=
    ((movement_is_exact largestWord).2.1 hlargest).2.2 .forward _ _
      (hdecimal _ _ (by decide)) (hhexadecimal 'x' (by decide) _ _ (by decide))
  have htooSteep : Movement.back.CalledOn tooLargeWord [] tooSteepLine.text :=
    ((movement_is_exact tooLargeWord).2.1 htooLarge).2.2 .back _ _
      (hhexadecimal 'x' (by decide) _ _ (by decide)) (hdecimal _ _ (by decide))
  refine ⟨⟨hplaced, hlargest, hlargestNumber, htooLargeNumber, hsteep, htooSteep⟩, ?_, ?_⟩
  · exact ((movement_is_exact tooLargeWord).2.2 .back steepScript [steepLine] [] tooSteepLine
      [] (2 ^ 32) hplaced htooSteep htooLargeNumber).1 (by decide)
  · obtain ⟨item, height, hcontent, hheight, hadds, hreread⟩ :=
      ((movement_is_exact largestWord).2.2 .forward steepScript [] [tooSteepLine] steepLine
        [] (2 ^ 32 - 1) hplaced hsteep hlargestNumber).2 [] (by decide) rfl (fun _ => rfl)
    refine ⟨item, height, hcontent, hheight, hadds, ?_⟩
    have hafter : (recoverFrom (.afterLines []) [tooSteepLine]).items = [] := by decide +kernel
    rw [hreread (by decide), hafter]
    rfl

end TicketPress
