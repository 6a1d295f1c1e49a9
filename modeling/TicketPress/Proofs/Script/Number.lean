import TicketPress.Instruction.Line
import TicketPress.Proofs.Decimal.Reading
import TicketPress.Proofs.Text.Trimming
import TicketPress.Script.Number

/-!
# Numbers of a line

The two forms in which a line writes a number are words, and each is read as
the number it was written for.
-/

namespace TicketPress

/-- A run of characters of words that is not empty. -/
def IsWord (spelling : List Char) : Prop :=
  spelling ≠ [] ∧ ∀ c ∈ spelling, isWordChar c = true

instance (spelling : List Char) : Decidable (IsWord spelling) :=
  decidable_of_iff (spelling ≠ [] ∧ spelling.all isWordChar = true) (by simp [IsWord])

theorem IsWord.trim_eq {spelling : List Char} (h : IsWord spelling) :
    Text.trim spelling = spelling :=
  Text.trim_eq_self fun c hc => Text.isBlank_of_isWordChar (h.2 c hc)

theorem isWord_dotsText (n : UInt32) : IsWord (dotsText n) := by
  refine ⟨by simp [dotsText, Decimal.write], fun c hc => ?_⟩
  have hdigit := Decimal.isDigit_of_mem_write hc
  simp [isWordChar, Char.isAlphanum, hdigit]

theorem isWord_hexText (n : UInt32) : IsWord (hexText n) := by
  refine ⟨by simp [hexText], fun c hc => ?_⟩
  simp only [hexText, List.mem_cons] at hc
  rcases hc with rfl | rfl | hc
  · decide
  · decide
  · simp [isWordChar, Decimal.isAlphanum_of_mem_writeHex hc]

/-- A digit begins with no sign, so a number without one is read as it is. -/
theorem unsigned?_eq_read? {base : Nat} {text : List Char} (h : '+' ∉ text) :
    unsigned? base text = Decimal.read? base text := by
  unfold unsigned?
  split
  · exact absurd (List.mem_cons_self ..) h
  · rfl

theorem number?_hexText (n : UInt32) : number? (hexText n) = some n := by
  have hsign : '+' ∉ Decimal.writeHex n.toNat := by
    intro h
    exact absurd (Decimal.isAlphanum_of_mem_writeHex h) (by decide)
  have hread : unsigned? 16 (Decimal.writeHex n.toNat) = some n.toNat := by
    rw [unsigned?_eq_read? hsign, Decimal.read?_writeHex]
  rw [number?, (isWord_hexText n).trim_eq, hexText]
  simp [hread, word?_eq_some_iff]

theorem number?_dotsText (n : UInt32) : number? (dotsText n) = some n := by
  have hdigit : ∀ c ∈ Decimal.write n.toNat, c.isDigit = true := by
    intro c hc
    exact Decimal.isDigit_of_mem_write hc
  have hsign : '+' ∉ Decimal.write n.toNat := by
    intro h
    exact absurd (hdigit _ h) (by decide)
  have hread : unsigned? 10 (Decimal.write n.toNat) = some n.toNat := by
    rw [unsigned?_eq_read? hsign, Decimal.read?_write]
  rw [number?, (isWord_dotsText n).trim_eq, dotsText]
  -- Decimal digits do not spell the mark of a hexadecimal number.
  split
  · rename_i heq
    exact absurd (hdigit 'x' (by simp [heq])) (by decide)
  · rename_i heq
    exact absurd (hdigit 'X' (by simp [heq])) (by decide)
  · simp [hread, word?_eq_some_iff]

end TicketPress
