import Mathlib.Data.List.Forall2
import Mathlib.Data.Nat.Digits.Defs
import TicketPress.Decimal.Digits

/-!
# Which runs of characters spell a number

A reader goes over the digits from the left and multiplies as it goes. What it
finds is the sum of the digits by their places, counted from the right, and it
finds this for runs of digits of any length, leading zeros included:
`read?_eq_some_iff`. The number has no bound here, so nothing is wrapped on the
way.
-/

namespace TicketPress.Decimal

/-! ## Digits -/

/-- The character is the digit of a number below the base; letters stand for
the numbers from ten on, in either case. -/
def IsDigit (base : Nat) (c : Char) (d : Nat) : Prop :=
  d < base ∧ (c = d.digitChar ∨ c = d.digitChar.toUpper)

theorem isDigit_of_digit? {base : Nat} (hbase : base ≤ 16) {c : Char} {d : Nat}
    (h : digit? base c = some d) : IsDigit base c d := by
  have hlt : d < base := digit?_lt h
  have hcode : c = Char.ofNat c.toNat := (Char.ofNat_toNat c).symm
  simp only [digit?, Option.ite_none_right_eq_some, Option.some.injEq, Char.reduceToNat,
    Char.le_def, UInt32.le_iff_toNat_le, Char.toNat_val] at h
  obtain ⟨-, hvalue⟩ := h
  refine ⟨hlt, ?_⟩
  -- A digit below sixteen has one of ten numbers or one of twice six letters.
  split at hvalue
  · rename_i hnumber
    have hchar : c.toNat = d + 48 := by omega
    have hall : ∀ d, d < 10 → Char.ofNat (d + 48) = d.digitChar := by decide
    left
    rw [hcode, hchar, hall d (by omega)]
  · split at hvalue
    · rename_i hsmall
      have hchar : c.toNat = d + 87 := by omega
      have hall : ∀ d, d < 16 → 10 ≤ d → Char.ofNat (d + 87) = d.digitChar := by decide
      left
      rw [hcode, hchar, hall d (by omega) (by omega)]
    · split at hvalue
      · rename_i hcapital
        have hchar : c.toNat = d + 55 := by omega
        have hall : ∀ d, d < 16 → 10 ≤ d → Char.ofNat (d + 55) = d.digitChar.toUpper := by decide
        right
        rw [hcode, hchar, hall d (by omega) (by omega)]
      · omega

/-- A digit of base sixteen is one of every smaller base that it fits. -/
theorem digit?_of_lt {base : Nat} {c : Char} {d : Nat}
    (h : digit? 16 c = some d) (hlt : d < base) : digit? base c = some d := by
  simp only [digit?, Option.ite_none_right_eq_some, Option.some.injEq] at h ⊢
  obtain ⟨hbound, rfl⟩ := h
  split_ifs at hbound hlt ⊢ <;> simp_all

theorem digit?_eq_some_iff {base : Nat} (hbase : base ≤ 16) {c : Char} {d : Nat} :
    digit? base c = some d ↔ IsDigit base c d := by
  refine ⟨isDigit_of_digit? hbase, ?_⟩
  rintro ⟨hlt, hc⟩
  have hall : ∀ d, d < 16 → digit? 16 d.digitChar = some d ∧
      digit? 16 d.digitChar.toUpper = some d := by decide
  obtain ⟨hsmall, hcapital⟩ := hall d (by omega)
  rcases hc with rfl | rfl
  · exact digit?_of_lt hsmall hlt
  · exact digit?_of_lt hcapital hlt

/-! ## Runs of digits -/

/-- The text is a run of digits of the base that is not empty, and the number is
the sum of the digits by their places. -/
structure Spells (base : Nat) (text : List Char) (n : Nat) : Prop where
  nonempty : text ≠ []
  value : ∃ digits, List.Forall₂ (IsDigit base) text digits ∧
    Nat.ofDigits base digits.reverse = n

theorem readFrom?_eq_some_iff {base : Nat} (hbase : base ≤ 16) {value n : Nat}
    {text : List Char} : readFrom? base value text = some n ↔
      ∃ digits, List.Forall₂ (IsDigit base) text digits ∧
        value * base ^ text.length + Nat.ofDigits base digits.reverse = n := by
  induction text generalizing value with
  | nil => simp [readFrom?]
  | cons c text ih =>
      simp only [readFrom?, Option.bind_eq_some_iff, digit?_eq_some_iff hbase, ih,
        List.forall₂_cons_left_iff]
      -- The first digit counts for the places of all others.
      have hplaces (d : Nat) (digits : List Nat)
          (hdigits : List.Forall₂ (IsDigit base) text digits) :
          (value * base + d) * base ^ text.length + Nat.ofDigits base digits.reverse =
            value * base ^ (c :: text).length + Nat.ofDigits base (d :: digits).reverse := by
        rw [List.reverse_cons, Nat.ofDigits_append, Nat.ofDigits_singleton, List.length_reverse,
          hdigits.length_eq, List.length_cons, hdigits.length_eq]
        ring
      constructor
      · rintro ⟨d, hd, digits, hdigits, rfl⟩
        exact ⟨d :: digits, ⟨d, digits, hd, hdigits, rfl⟩, (hplaces d digits hdigits).symm⟩
      · rintro ⟨_, ⟨d, digits, hd, hdigits, rfl⟩, rfl⟩
        exact ⟨d, hd, digits, hdigits, hplaces d digits hdigits⟩

/-- A text is read as a number exactly if it spells it. -/
theorem read?_eq_some_iff {base : Nat} (hbase : base ≤ 16) {text : List Char} {n : Nat} :
    read? base text = some n ↔ Spells base text n := by
  rw [read?]
  constructor
  · intro h
    obtain ⟨hne, hread⟩ := Option.ite_none_left_eq_some.mp h
    obtain ⟨digits, hdigits, hvalue⟩ := (readFrom?_eq_some_iff hbase).mp hread
    exact ⟨hne, digits, hdigits, by simpa using hvalue⟩
  · rintro ⟨hne, digits, hdigits, hvalue⟩
    rw [if_neg hne]
    exact (readFrom?_eq_some_iff hbase).mpr ⟨digits, hdigits, by simpa using hvalue⟩

/-- What holds of all digits of a base holds of the characters of every run of
them. -/
theorem Spells.forall_mem {base : Nat} {P : Char → Prop}
    (hall : ∀ d, d < base → P d.digitChar ∧ P d.digitChar.toUpper) {text : List Char} {n : Nat}
    (h : Spells base text n) : ∀ c ∈ text, P c := by
  obtain ⟨-, digits, hdigits, -⟩ := h
  induction hdigits with
  | nil => simp
  | @cons first d _ _ hfirst _ ih =>
      intro c hc
      rcases List.mem_cons.mp hc with rfl | hc
      · obtain ⟨hlt, rfl | rfl⟩ := hfirst
        · exact (hall d hlt).1
        · exact (hall d hlt).2
      · exact ih c hc

end TicketPress.Decimal
