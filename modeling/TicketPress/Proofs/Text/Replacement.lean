import TicketPress.Proofs.Text.Occurrence

/-!
# Replacing a piece

A replacement either stands before the piece, and puts the new text in its
place, or goes on by one character. The pieces that are replaced in scripts are
single characters and pairs. For a single character this goes character by
character; for a pair it looks one character ahead, and `pair_induction` is the
induction that goes with it.
-/

namespace TicketPress.Text

/-! ## Any piece -/

/-- What is still to be passed over of a match is left out. -/
theorem replaceFrom_eq_drop (pat new : List Char) (skip : Nat) (text : List Char) :
    replaceFrom pat new skip text = replaceAll pat new (text.drop skip) := by
  induction text generalizing skip with
  | nil =>
      rw [List.drop_nil]
      cases skip <;> rfl
  | cons c text ih =>
      cases skip with
      | zero => rfl
      | succ skip => exact ih skip

/-- Before the piece the new text takes its place. -/
theorem replaceAll_append_self (p : Char) (pat new text : List Char) :
    replaceAll (p :: pat) new (p :: pat ++ text) = new ++ replaceAll (p :: pat) new text := by
  have hstart : (dropPrefix? (p :: pat) (p :: (pat ++ text))).isSome = true :=
    isSome_dropPrefix?_iff.mpr (List.prefix_append (p :: pat) text)
  rw [List.cons_append, replaceAll, replaceFrom, if_pos hstart, replaceFrom_eq_drop]
  simp

/-- Elsewhere a character is copied. -/
theorem replaceAll_cons_of_not_start {pat : List Char} {c : Char} {text : List Char}
    (h : ¬ pat <+: c :: text) (new : List Char) :
    replaceAll pat new (c :: text) = c :: replaceAll pat new text := by
  rw [← isSome_dropPrefix?_iff] at h
  rw [replaceAll, replaceFrom, if_neg h, replaceAll]

/-! ## Single characters -/

theorem replaceAll_singleton_self (p : Char) (new text : List Char) :
    replaceAll [p] new (p :: text) = new ++ replaceAll [p] new text :=
  replaceAll_append_self p [] new text

theorem replaceAll_singleton_of_ne {p c : Char} (h : c ≠ p) (new text : List Char) :
    replaceAll [p] new (c :: text) = c :: replaceAll [p] new text :=
  replaceAll_cons_of_not_start (fun hpre => h (List.cons_prefix_cons.mp hpre).1.symm) new

/-! ## Pairs -/

/-- A pair starts a text if its two characters do. -/
theorem pair_prefix_cons_iff {p q c : Char} {text : List Char} :
    [p, q] <+: c :: text ↔ c = p ∧ text.head? = some q := by
  cases text with
  | nil => simp
  | cons d text =>
      simp only [List.cons_prefix_cons, List.nil_prefix, and_true, List.head?_cons,
        Option.some.injEq]
      exact and_congr eq_comm eq_comm

theorem replaceAll_pair (p q : Char) (new text : List Char) :
    replaceAll [p, q] new (p :: q :: text) = new ++ replaceAll [p, q] new text :=
  replaceAll_append_self p [q] new text

theorem replaceAll_pair_of_not {p q c : Char} {text : List Char}
    (h : ¬ (c = p ∧ text.head? = some q)) (new : List Char) :
    replaceAll [p, q] new (c :: text) = c :: replaceAll [p, q] new text := by
  rw [← pair_prefix_cons_iff] at h
  exact replaceAll_cons_of_not_start h new

/-- A replacement of pairs goes by the first two characters of a text, so an
induction over texts has these three cases. -/
theorem pair_induction (p q : Char) {motive : List Char → Prop} (nil : motive [])
    (pair : ∀ text, motive text → motive (p :: q :: text))
    (char : ∀ c text, ¬ (c = p ∧ text.head? = some q) → motive text → motive (c :: text))
    (text : List Char) : motive text := by
  induction h : text.length using Nat.strongRecOn generalizing text with
  | ind n ih =>
      subst h
      match text with
      | [] => exact nil
      | c :: text =>
          by_cases hpair : c = p ∧ text.head? = some q
          · obtain ⟨rfl, hq⟩ := hpair
            obtain ⟨rest, rfl⟩ := List.head?_eq_some_iff.mp hq
            exact pair rest (ih rest.length (by simp only [List.length_cons]; omega) rest rfl)
          · exact char c text hpair (ih text.length (by simp) text rfl)

end TicketPress.Text
