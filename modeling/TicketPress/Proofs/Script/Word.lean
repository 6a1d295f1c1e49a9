import TicketPress.Proofs.Decimal.Spelling
import TicketPress.Proofs.Script.Cutting

/-!
# Words that are numbers

The words of a line are the runs of letters, digits and underscores. A word is
read as a number exactly if it is a run of decimal digits, or one of
hexadecimal digits after its mark, whose value fits 32 bits. The value is the
one of the digits as they stand, however many there are; a value that does not
fit is refused as a whole, and no other word is taken for a number.
-/

namespace TicketPress

/-! ## The words of a line -/

theorem isWord_of_mem_lexemes {line spelling : List Char}
    (h : Lexeme.word spelling ∈ lexemes line) : IsWord spelling := by
  induction line using lexemes_induction with
  | nil => simp at h
  | blank c line hblank ih =>
      rw [lexemes_blank hblank] at h
      exact ih h
  | next c line hblank ih =>
      rw [lexemes_next hblank, List.mem_cons] at h
      rcases h with hfirst | hrest
      · have hcut := @nextLexeme_isCut [] c line hblank fun _ => rfl
        rw [← hfirst] at hcut
        exact hcut.1
      · exact ih hrest

/-- The runs of characters of words are the words that lines have. -/
theorem isWord_iff_exists_line {spelling : List Char} :
    IsWord spelling ↔ ∃ line, Lexeme.word spelling ∈ lexemes line := by
  constructor
  · intro h
    refine ⟨spelling, ?_⟩
    have hlexemes := @lexemes_word spelling h [] rfl
    rw [List.append_nil] at hlexemes
    rw [hlexemes]
    exact List.mem_cons_self
  · rintro ⟨line, hmem⟩
    exact isWord_of_mem_lexemes hmem

/-! ## Numbers -/

/-- The number a word is written for: one in decimal, or one in hexadecimal
after `0x` or `0X`. -/
inductive Denotes : List Char → Nat → Prop where
  | decimal {digits : List Char} {n : Nat} (h : Decimal.Spells 10 digits n) : Denotes digits n
  | hexadecimal {x : Char} (hmark : x = 'x' ∨ x = 'X') {digits : List Char} {n : Nat}
      (h : Decimal.Spells 16 digits n) : Denotes ('0' :: x :: digits) n

theorem Denotes.isWord {word : List Char} {n : Nat} (h : Denotes word n) : IsWord word := by
  cases h with
  | decimal h => exact ⟨h.nonempty, h.forall_mem (by decide)⟩
  | @hexadecimal x hmark digits _ h =>
      have hdigits : ∀ c ∈ digits, isWordChar c = true := h.forall_mem (by decide)
      refine ⟨by simp, ?_⟩
      rcases hmark with rfl | rfl <;> simpa using ⟨by decide, by decide, hdigits⟩

/-- Digits have no sign before them. -/
theorem unsigned?_eq_some_iff {base : Nat} (hbase : base ≤ 16) {digits : List Char}
    (hdigits : ∀ c ∈ digits, isWordChar c = true) {n : Nat} :
    unsigned? base digits = some n ↔ Decimal.Spells base digits n := by
  have hsign : '+' ∉ digits := fun hmem => absurd (hdigits '+' hmem) (by decide)
  rw [unsigned?_eq_read? hsign, Decimal.read?_eq_some_iff hbase]

/-- What a word is written for is taken if it fits. -/
theorem Denotes.number?_eq {word : List Char} {n : Nat} (h : Denotes word n) :
    number? word = word? n := by
  have hword := h.isWord
  rw [number?, hword.trim_eq]
  cases h with
  | decimal h =>
      have hread : unsigned? 10 word = some n :=
        (unsigned?_eq_some_iff (by omega) hword.2).mpr h
      -- No decimal digit is the mark of a hexadecimal number.
      have hplain : ∀ c ∈ word, c ≠ 'x' ∧ c ≠ 'X' := h.forall_mem (by decide)
      split
      · exact absurd rfl (hplain 'x' (by simp)).1
      · exact absurd rfl (hplain 'X' (by simp)).2
      · simp [hread]
  | @hexadecimal x hmark digits _ h =>
      have hread : unsigned? 16 digits = some n :=
        (unsigned?_eq_some_iff (by omega) fun c hc => hword.2 c (by simp [hc])).mpr h
      rcases hmark with rfl | rfl <;> simp [hread]

/-- A word is read as a number exactly if it is written for it. -/
theorem number?_eq_some_iff {word : List Char} (hword : IsWord word) {w : UInt32} :
    number? word = some w ↔ Denotes word w.toNat := by
  constructor
  · intro h
    rw [number?, hword.trim_eq] at h
    obtain ⟨n, hvalue, hfits⟩ := Option.bind_eq_some_iff.mp h
    rw [word?_eq_some_iff.mp hfits]
    have hrest : ∀ x digits, word = '0' :: x :: digits → ∀ c ∈ digits, isWordChar c = true := by
      rintro x digits rfl c hc
      exact hword.2 c (by simp [hc])
    split at hvalue
    · rename_i digits
      exact .hexadecimal (Or.inl rfl)
        ((unsigned?_eq_some_iff (by omega) (hrest 'x' digits rfl)).mp hvalue)
    · rename_i digits
      exact .hexadecimal (Or.inr rfl)
        ((unsigned?_eq_some_iff (by omega) (hrest 'X' digits rfl)).mp hvalue)
    · exact .decimal ((unsigned?_eq_some_iff (by omega) hword.2).mp hvalue)
  · intro h
    rw [h.number?_eq, word?_eq_some_iff]

/-- A word is refused exactly if what it is written for does not fit. -/
theorem number?_eq_none_iff {word : List Char} (hword : IsWord word) :
    number? word = none ↔ ∀ n, Denotes word n → 2 ^ 32 ≤ n := by
  constructor
  · intro hnone n hn
    rw [hn.number?_eq, word?, ite_eq_right_iff] at hnone
    by_contra hlt
    exact absurd (hnone (by simp only [UInt32.size]; omega)) (by simp)
  · intro hlarge
    cases hread : number? word with
    | none => rfl
    | some w =>
        have hfits := hlarge w.toNat ((number?_eq_some_iff hword).mp hread)
        have hlt := w.toNat_lt
        omega

/-- Leading zeros do not count, and one more than the largest number is none. -/
example : number? "00004294967295".toList = some 4294967295 ∧
    number? "0x100000000".toList = none ∧ number? "0x".toList = none := by decide

end TicketPress
