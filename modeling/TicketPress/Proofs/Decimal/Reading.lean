import TicketPress.Decimal.Digits

/-!
# Reading back what was written

The digits of a number, read in the same base, are the number. The induction is
on the number: all its digits but the last are those of its quotient by the
base. Capital letters and leading zeros do not matter, which is what the
hexadecimal form needs.
-/

namespace TicketPress.Decimal

/-! ## Runs of digits -/

theorem readFrom?_append (base value : Nat) (a b : List Char) :
    readFrom? base value (a ++ b) =
      (readFrom? base value a).bind fun read => readFrom? base read b := by
  induction a generalizing value with
  | nil => rfl
  | cons c a ih =>
      simp only [List.cons_append, readFrom?]
      cases digit? base c with
      | none => rfl
      | some d => exact ih (value * base + d)

/-- Leading zeros are read as nothing. -/
theorem readFrom?_zeros {base : Nat} (hzero : digit? base '0' = some 0) (k : Nat)
    (text : List Char) :
    readFrom? base 0 (List.replicate k '0' ++ text) = readFrom? base 0 text := by
  induction k with
  | zero => rfl
  | succ k ih =>
      simp only [List.replicate_succ, List.cons_append, readFrom?, hzero, Option.bind_some]
      simpa using ih

/-- The digits of a number are those of digits below the base. -/
theorem exists_digitChar_of_mem_toDigits {base : Nat} (hbase : 1 < base) {n : Nat} {c : Char}
    (h : c ∈ Nat.toDigits base n) : ∃ d, d < base ∧ c = d.digitChar := by
  induction n using Nat.strongRecOn with
  | ind n ih =>
      rw [Nat.toDigits_eq_if hbase] at h
      split at h
      · rename_i hn
        exact ⟨n, hn, by simpa using h⟩
      · rename_i hn
        rcases List.mem_append.mp h with hquot | hlast
        · exact ih (n / base) (Nat.div_lt_self (by omega) hbase) hquot
        · exact ⟨n % base, Nat.mod_lt n (by omega), by simpa using hlast⟩

/-- The digits of a number are read as the number, in whatever letters they
are written. -/
theorem readFrom?_map_toDigits {base : Nat} (hbase : 1 < base) {letter : Char → Char}
    (hletter : ∀ d, d < base → digit? base (letter d.digitChar) = some d) (n : Nat) :
    readFrom? base 0 ((Nat.toDigits base n).map letter) = some n := by
  induction n using Nat.strongRecOn with
  | ind n ih =>
      rw [Nat.toDigits_eq_if hbase]
      split
      · rename_i hn
        simp [readFrom?, hletter n hn]
      · rename_i hn
        have hquot := ih (n / base) (Nat.div_lt_self (by omega) hbase)
        have hlast := hletter (n % base) (Nat.mod_lt n (by omega))
        rw [List.map_append, readFrom?_append, hquot]
        simp [readFrom?, hlast, Nat.div_add_mod']

/-! ## Both bases -/

theorem read?_write (n : Nat) : read? 10 (write n) = some n := by
  have hdigits : readFrom? 10 0 ((Nat.toDigits 10 n).map id) = some n :=
    readFrom?_map_toDigits (by omega) (by decide) n
  rw [List.map_id] at hdigits
  rw [read?, if_neg (by simp [write]), write, hdigits]

theorem read?_writeHex (n : Nat) : read? 16 (writeHex n) = some n := by
  have hdigits : readFrom? 16 0 ((Nat.toDigits 16 n).map Char.toUpper) = some n :=
    readFrom?_map_toDigits (by omega) (by decide) n
  rw [read?, if_neg (by simp [writeHex]), writeHex, readFrom?_zeros (by decide), hdigits]

/-! ## The characters of a number -/

theorem isDigit_of_mem_write {n : Nat} {c : Char} (h : c ∈ write n) : c.isDigit = true :=
  Nat.isDigit_of_mem_toDigits (by omega) (by omega) h

theorem isAlphanum_of_mem_writeHex {n : Nat} {c : Char} (h : c ∈ writeHex n) :
    c.isAlphanum = true := by
  rcases List.mem_append.mp h with hzero | hdigit
  · rw [(List.mem_replicate.mp hzero).2]
    decide
  · obtain ⟨digit, hmem, rfl⟩ := List.mem_map.mp hdigit
    obtain ⟨d, hd, rfl⟩ := exists_digitChar_of_mem_toDigits (by omega) hmem
    have hall : ∀ d, d < 16 → d.digitChar.toUpper.isAlphanum = true := by decide
    exact hall d hd

end TicketPress.Decimal
