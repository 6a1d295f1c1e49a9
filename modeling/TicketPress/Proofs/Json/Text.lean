import Mathlib.Tactic.SplitIfs
import TicketPress.Json.Reader
import TicketPress.Json.Writer

/-!
# Reading back what stands between quotes

A text is escaped character by character, and the reader meets one piece for
each of them: a character with an escape of its own comes back as that
character, another control character as a UTF-16 unit. Such a unit is no half
of a pair, so joining the pieces gives the text again. `readText_escaped` is
the result, with anything at all behind the closing quote.
-/

namespace TicketPress.Json

/-- Whether a piece stands for one character by itself. -/
def Piece.Spells (c : Char) : Piece → Prop
  | .char d => d = c
  | .unit u => u = c.toNat ∧ u < 0xD800

theorem joinPieces_cons {c : Char} {piece : Piece} (h : piece.Spells c) (stop : Option Cause)
    (pieces : List Piece) :
    joinPieces stop (piece :: pieces) = (joinPieces stop pieces).map (c :: ·) := by
  cases piece with
  | char d =>
    cases h
    rw [joinPieces]
  | unit u =>
    obtain ⟨rfl, hlow⟩ := h
    have htrailing : isTrailing c.toNat = false := by simp [isTrailing]; omega
    have hleading : isLeading c.toNat = false := by simp [isLeading]; omega
    have hback : Char.ofNat c.toNat = c := Char.ofNat_toNat c
    rcases pieces with _ | ⟨_ | _, pieces⟩ <;>
      simp [joinPieces, htrailing, hleading, hback]

/-- The digits of a control character mean its number. -/
theorem read?_controlDigits : ∀ n < 0x20,
    Decimal.read? 16 ['0', '0', Nat.digitChar (n / 16), Nat.digitChar (n % 16)] = some n := by
  decide

theorem scanText_shortEscape {c e : Char} (h : shortEscape? e = some c) (rest : List Char) :
    scanText ('\\' :: e :: rest) = (.char c :: (scanText rest).1, (scanText rest).2) := by
  have hunit : e ≠ 'u' := by
    rintro rfl
    simp [shortEscape?] at h
  simp [scanText, h, hunit]

/-- An escaped character is scanned as one piece. -/
theorem scanText_escapedChar (c : Char) :
    ∃ piece : Piece, piece.Spells c ∧ ∀ rest,
      scanText (escapedChar c ++ rest) = (piece :: (scanText rest).1, (scanText rest).2) := by
  unfold escapedChar
  split_ifs with hquote hbackslash hb ht hn hf hr hcontrol
  · exact ⟨.char c, rfl, scanText_shortEscape (by rw [hquote]; rfl)⟩
  · exact ⟨.char c, rfl, scanText_shortEscape (by rw [hbackslash]; rfl)⟩
  · exact ⟨.char c, rfl, scanText_shortEscape (by rw [hb]; rfl)⟩
  · exact ⟨.char c, rfl, scanText_shortEscape (by rw [ht]; rfl)⟩
  · exact ⟨.char c, rfl, scanText_shortEscape (by rw [hn]; rfl)⟩
  · exact ⟨.char c, rfl, scanText_shortEscape (by rw [hf]; rfl)⟩
  · exact ⟨.char c, rfl, scanText_shortEscape (by rw [hr]; rfl)⟩
  · refine ⟨.unit c.toNat, ⟨rfl, by omega⟩, fun rest => ?_⟩
    simp [scanText, read?_controlDigits c.toNat hcontrol]
  · exact ⟨.char c, rfl, fun rest => by simp [scanText, hbackslash, hcontrol]⟩

theorem scanText_escaped (text rest : List Char) :
    ∃ pieces, scanText (text.flatMap escapedChar ++ '"' :: rest) = (pieces, .ok rest) ∧
      joinPieces none pieces = .ok text := by
  induction text with
  | nil => exact ⟨[], by simp [scanText], rfl⟩
  | cons c text ih =>
    obtain ⟨pieces, hscan, hjoin⟩ := ih
    obtain ⟨piece, hspells, hpiece⟩ := scanText_escapedChar c
    refine ⟨piece :: pieces, ?_, ?_⟩
    · rw [List.flatMap_cons, List.append_assoc, hpiece, hscan]
    · rw [joinPieces_cons hspells, hjoin]
      rfl

/-- A text between quotes is read back, whatever follows the closing quote. -/
theorem readText_escaped (text : String) (rest : List Char) :
    readText (text.toList.flatMap escapedChar ++ '"' :: rest) =
      (.text (.ok text) (.ok ()), some rest) := by
  obtain ⟨pieces, hscan, hjoin⟩ := scanText_escaped text.toList rest
  rw [readText, hscan]
  simp only [hjoin, Except.map, String.ofList_toList]

end TicketPress.Json
