import TicketPress.Proofs.Text.Replacement

/-!
# How often a piece stands in a text

Every place where a piece starts is counted, so nothing is lost when text is
put in front: `occurrences_le_append`. A replacement passes over such text
unchanged as long as no place is won by it, wherever the new places might reach
to: `replaceAll_append_of_occurrences_le`. This is how a replacement is followed
through a text that was put together from parts.
-/

namespace TicketPress.Text

/-- The number of places of a text where the piece starts; it is not empty. -/
def occurrences (pat : List Char) : List Char → Nat
  | [] => 0
  | c :: text => (if pat <+: c :: text then 1 else 0) + occurrences pat text

@[simp] theorem occurrences_nil (pat : List Char) : occurrences pat [] = 0 := rfl

theorem occurrences_cons_of_start {pat : List Char} {c : Char} {text : List Char}
    (h : pat <+: c :: text) : occurrences pat (c :: text) = 1 + occurrences pat text := by
  rw [occurrences, if_pos h]

theorem occurrences_cons_of_not_start {pat : List Char} {c : Char} {text : List Char}
    (h : ¬ pat <+: c :: text) : occurrences pat (c :: text) = occurrences pat text := by
  rw [occurrences, if_neg h, Nat.zero_add]

/-- A piece has a place in a text exactly if it is a run of its characters. -/
theorem occurrences_pos_iff {p : Char} {pat text : List Char} :
    0 < occurrences (p :: pat) text ↔ p :: pat <:+: text := by
  induction text with
  | nil => simp
  | cons c text ih =>
      rw [List.infix_cons_iff, ← ih]
      by_cases h : p :: pat <+: c :: text
      · rw [occurrences_cons_of_start h]
        exact ⟨fun _ => Or.inl h, fun _ => by omega⟩
      · rw [occurrences_cons_of_not_start h]
        exact ⟨Or.inr, fun hor => hor.resolve_left h⟩

/-! ## Text in front -/

theorem occurrences_le_append (pat a b : List Char) :
    occurrences pat b ≤ occurrences pat (a ++ b) := by
  induction a with
  | nil => exact Nat.le_refl _
  | cons c a ih =>
      rw [List.cons_append, occurrences]
      omega

/-- No place is won by text without the first character of the piece. -/
theorem occurrences_append_of_not_mem {p : Char} {a : List Char} (h : p ∉ a)
    (pat b : List Char) : occurrences (p :: pat) (a ++ b) = occurrences (p :: pat) b := by
  induction a with
  | nil => rfl
  | cons c a ih =>
      obtain ⟨hc, ha⟩ : p ≠ c ∧ p ∉ a := by simpa using h
      have hstart : ¬ p :: pat <+: c :: (a ++ b) := fun hpre =>
        hc (List.cons_prefix_cons.mp hpre).1
      rw [List.cons_append, occurrences_cons_of_not_start hstart, ih ha]

/-- The piece itself wins a place at least. -/
theorem occurrences_lt_append_self (p : Char) (pat b : List Char) :
    occurrences (p :: pat) b < occurrences (p :: pat) (p :: pat ++ b) := by
  have hrest := occurrences_le_append (p :: pat) pat b
  have hstart : p :: pat <+: p :: (pat ++ b) := List.prefix_append (p :: pat) b
  rw [List.cons_append, occurrences_cons_of_start hstart]
  omega

/-! ## Replacement -/

/-- A replacement passes over text in front that wins no place. -/
theorem replaceAll_append_of_occurrences_le {pat a b : List Char}
    (h : occurrences pat (a ++ b) ≤ occurrences pat b) (new : List Char) :
    replaceAll pat new (a ++ b) = a ++ replaceAll pat new b := by
  induction a with
  | nil => rfl
  | cons c a ih =>
      have hrest := occurrences_le_append pat a b
      rw [List.cons_append] at h
      have hstart : ¬ pat <+: c :: (a ++ b) := by
        intro hpre
        rw [occurrences_cons_of_start hpre] at h
        omega
      rw [occurrences_cons_of_not_start hstart] at h
      rw [List.cons_append, replaceAll_cons_of_not_start hstart, ih h, List.cons_append]

end TicketPress.Text
