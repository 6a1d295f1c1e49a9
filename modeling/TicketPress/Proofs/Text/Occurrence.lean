import Mathlib.Data.List.Infix
import TicketPress.Text.Search

/-!
# Occurrences

What the search of a text finds, in terms of the list of its characters.
`breakOn` cuts at the first place where the piece stands; `breakOn_eq_some_iff`
says which place this is. A character that cannot take part in an occurrence
divides the search: `breakOn_append_of_not_mem` passes over such characters,
`occurs_append_cons_of_not_mem` looks on both sides of one.
-/

namespace TicketPress.Text

/-! ## Where a piece stands -/

theorem isSome_dropPrefix?_iff {pat text : List Char} :
    (dropPrefix? pat text).isSome = true ↔ pat <+: text := by
  rw [Option.isSome_iff_exists]
  constructor
  · rintro ⟨rest, hrest⟩
    exact ⟨rest, (dropPrefix?_eq_some_iff.mp hrest).symm⟩
  · rintro ⟨rest, rfl⟩
    exact ⟨rest, dropPrefix?_eq_some_iff.mpr rfl⟩

theorem dropPrefix?_eq_none_iff {pat text : List Char} :
    dropPrefix? pat text = none ↔ ¬ pat <+: text := by
  rw [← isSome_dropPrefix?_iff, Option.not_isSome_iff_eq_none]

/-- A piece stands in a text if it starts the text or stands in its tail. -/
theorem occurs_cons {pat : List Char} {c : Char} {text : List Char} :
    occurs pat (c :: text) = true ↔ pat <+: c :: text ∨ occurs pat text = true := by
  rw [← isSome_dropPrefix?_iff]
  simp only [occurs, breakOn]
  cases dropPrefix? pat (c :: text) with
  | none => simp
  | some rest => simp

/-- A piece stands in a text exactly if it is a run of its characters. -/
theorem occurs_iff_infix {pat text : List Char} :
    occurs pat text = true ↔ pat <:+: text := by
  induction text with
  | nil =>
      by_cases hpat : pat = []
      · simp [occurs, breakOn, hpat]
      · simp [occurs, breakOn, hpat]
  | cons c text ih =>
      rw [occurs_cons, ih, List.infix_cons_iff]

theorem not_occurs_iff {pat text : List Char} :
    occurs pat text = false ↔ ¬ pat <:+: text := by
  rw [← occurs_iff_infix, Bool.not_eq_true]

/-- A run of a text that lacks a piece lacks it as well. -/
theorem not_occurs_of_infix {pat part text : List Char} (h : occurs pat text = false)
    (hpart : part <:+: text) : occurs pat part = false := by
  rw [not_occurs_iff] at h ⊢
  exact fun hin => h (hin.trans hpart)

/-- A beginning of two parts holds the first one or stops inside it. -/
theorem prefix_append_cases {α : Type} {a b front : List α} (h : front <+: a ++ b) :
    (∃ more, more <+: b ∧ front = a ++ more) ∨ (front <+: a ∧ front ≠ a) := by
  rcases List.prefix_or_prefix_of_prefix h (List.prefix_append a b) with hshort | ⟨more, rfl⟩
  · by_cases hall : front = a
    · exact Or.inl ⟨[], List.nil_prefix, by simp [hall]⟩
    · exact Or.inr ⟨hshort, hall⟩
  · exact Or.inl ⟨more, (List.prefix_append_right_inj a).mp h, rfl⟩

/-! ## Characters outside a piece -/

/-- An occurrence of a piece begins with its first character, so text without
that character is passed over. -/
theorem breakOn_append_of_not_mem {p : Char} {pat before : List Char} (h : p ∉ before)
    (text : List Char) :
    breakOn (p :: pat) (before ++ text) =
      (breakOn (p :: pat) text).map fun parts => (before ++ parts.1, parts.2) := by
  induction before with
  | nil => simp
  | cons c before ih =>
      obtain ⟨hpc, hrest⟩ : p ≠ c ∧ p ∉ before := by simpa using h
      have hstep : dropPrefix? (p :: pat) (c :: (before ++ text)) = none := by
        simp [dropPrefix?, hpc]
      simp only [List.cons_append, breakOn, hstep, ih hrest, Option.map_map]
      rfl

/-- A text is cut at a piece whose first character does not stand before it. -/
theorem breakOn_of_not_mem {p : Char} {before : List Char} (h : p ∉ before)
    (pat after : List Char) :
    breakOn (p :: pat) (before ++ (p :: pat ++ after)) = some (before, after) := by
  have hstart : dropPrefix? (p :: pat) (p :: (pat ++ after)) = some after :=
    dropPrefix?_eq_some_iff.mpr rfl
  have hhere : breakOn (p :: pat) (p :: pat ++ after) = some ([], after) := by
    rw [List.cons_append, breakOn, hstart]
  rw [breakOn_append_of_not_mem h, hhere, Option.map_some, List.append_nil]

theorem occurs_append_of_not_mem {p : Char} {pat before : List Char} (h : p ∉ before)
    (text : List Char) : occurs (p :: pat) (before ++ text) = occurs (p :: pat) text := by
  simp [occurs, breakOn_append_of_not_mem h]

/-- A piece that begins before a character it does not hold ends before it. -/
theorem prefix_append_cons_of_not_mem {pat : List Char} {c : Char} (h : c ∉ pat)
    (before after : List Char) : pat <+: before ++ c :: after ↔ pat <+: before := by
  induction pat generalizing before with
  | nil => simp
  | cons p pat ih =>
      obtain ⟨hp, hpat⟩ : c ≠ p ∧ c ∉ pat := by simpa using h
      cases before with
      | nil =>
          rw [List.nil_append, List.cons_prefix_cons, List.prefix_nil]
          constructor
          · rintro ⟨rfl, -⟩
            exact absurd rfl hp
          · intro hnil
            exact absurd hnil (by simp)
      | cons d before =>
          rw [List.cons_append, List.cons_prefix_cons, List.cons_prefix_cons, ih hpat]

/-- A character that a piece does not hold divides its occurrences. -/
theorem occurs_append_cons_of_not_mem {p : Char} {pat : List Char} {c : Char}
    (h : c ∉ p :: pat) (before after : List Char) :
    occurs (p :: pat) (before ++ c :: after) =
      (occurs (p :: pat) before || occurs (p :: pat) after) := by
  rw [Bool.eq_iff_iff, Bool.or_eq_true]
  induction before with
  | nil =>
      have hne : p ≠ c := by
        rintro rfl
        exact h (by simp)
      have hskip : occurs (p :: pat) (c :: after) = occurs (p :: pat) after :=
        occurs_append_of_not_mem (by simpa using hne : p ∉ [c]) after
      rw [List.nil_append, hskip]
      simp [occurs, breakOn]
  | cons d before ih =>
      rw [List.cons_append, occurs_cons, occurs_cons, ih, ← List.cons_append,
        prefix_append_cons_of_not_mem h, or_assoc]

/-- The search goes on behind a character that a piece does not hold, if the
piece does not stand before it. -/
theorem breakOn_append_cons_of_not_mem {p : Char} {pat : List Char} {c : Char}
    (h : c ∉ p :: pat) {before : List Char} (hbefore : occurs (p :: pat) before = false)
    (after : List Char) :
    breakOn (p :: pat) (before ++ c :: after) =
      (breakOn (p :: pat) after).map fun parts => (before ++ c :: parts.1, parts.2) := by
  induction before with
  | nil =>
      have hpc : p ∉ [c] := fun hmem => h (by simp [List.mem_singleton.mp hmem])
      exact breakOn_append_of_not_mem hpc after
  | cons d before ih =>
      rw [← Bool.not_eq_true, occurs_cons, not_or, Bool.not_eq_true] at hbefore
      have hstep : dropPrefix? (p :: pat) (d :: (before ++ c :: after)) = none := by
        rw [dropPrefix?_eq_none_iff, ← List.cons_append, prefix_append_cons_of_not_mem h]
        exact hbefore.1
      simp only [List.cons_append, breakOn, hstep, ih hbefore.2, Option.map_map]
      rfl

/-! ## The first occurrence -/

/-- Before the place where a text is cut the piece does not even begin: it does
not stand there when all of it but its last character follows. -/
theorem not_occurs_of_breakOn {p : Char} {pat text before after : List Char}
    (h : breakOn (p :: pat) text = some (before, after)) :
    occurs (p :: pat) (before ++ (p :: pat).dropLast) = false := by
  induction text generalizing before with
  | nil => simp [breakOn] at h
  | cons c text ih =>
      simp only [breakOn] at h
      split at h
      · obtain ⟨rfl, rfl⟩ : [] = before ∧ _ = after := by simpa using h
        rw [not_occurs_iff]
        intro hin
        have hlength := hin.length_le
        simp only [List.nil_append, List.length_dropLast, List.length_cons] at hlength
        omega
      · rename_i hnone
        simp only [Option.map_eq_some_iff, Prod.exists] at h
        obtain ⟨start, rest, hbreak, hpair⟩ := h
        obtain ⟨rfl, rfl⟩ : c :: start = before ∧ rest = after := by simpa using hpair
        rw [List.cons_append, ← Bool.not_eq_true, occurs_cons, ih hbreak]
        rintro (hpre | hrest)
        · have hmore : c :: (start ++ (p :: pat).dropLast) <+: c :: text := by
            rw [eq_of_breakOn hbreak, List.cons_prefix_cons, List.append_assoc,
              List.prefix_append_right_inj]
            exact ⟨rfl, (List.dropLast_prefix _).trans (List.prefix_append _ rest)⟩
          rw [dropPrefix?_eq_none_iff] at hnone
          exact hnone (hpre.trans hmore)
        · exact absurd hrest (by simp)

/-- A text is cut at the first place of a piece. An occurrence that starts before
this place would be over before the piece is. -/
theorem breakOn_eq_some_iff {p : Char} {pat text before after : List Char} :
    breakOn (p :: pat) text = some (before, after) ↔ text = before ++ (p :: pat ++ after) ∧
      occurs (p :: pat) (before ++ (p :: pat).dropLast) = false := by
  constructor
  · intro h
    exact ⟨by rw [eq_of_breakOn h, List.append_assoc], not_occurs_of_breakOn h⟩
  · rintro ⟨rfl, hfirst⟩
    induction before with
    | nil => exact breakOn_of_not_mem List.not_mem_nil pat after
    | cons c before ih =>
        rw [List.cons_append, ← Bool.not_eq_true, occurs_cons, not_or, Bool.not_eq_true] at hfirst
        have hstep : dropPrefix? (p :: pat) (c :: (before ++ (p :: pat ++ after))) = none := by
          rw [dropPrefix?_eq_none_iff]
          intro hpre
          -- The piece is not longer than what stands before its end.
          have hstart : c :: (before ++ (p :: pat).dropLast) <+:
              c :: (before ++ (p :: pat ++ after)) := by
            rw [List.cons_prefix_cons, List.prefix_append_right_inj]
            exact ⟨rfl, (List.dropLast_prefix _).trans (List.prefix_append _ after)⟩
          exact hfirst.1 (List.prefix_of_prefix_length_le hpre hstart (by simp))
        rw [List.cons_append, breakOn, hstep, ih hfirst.2]
        rfl

/-- The first occurrence stays the first one when the text goes on. -/
theorem breakOn_append_of_eq_some {p : Char} {pat text before after : List Char}
    (h : breakOn (p :: pat) text = some (before, after)) (more : List Char) :
    breakOn (p :: pat) (text ++ more) = some (before, after ++ more) := by
  rw [breakOn_eq_some_iff] at h ⊢
  obtain ⟨rfl, hfirst⟩ := h
  exact ⟨by simp, hfirst⟩

/-- A text is cut at the first place of a character. -/
theorem breakOn_singleton_eq_some_iff {p : Char} {text before after : List Char} :
    breakOn [p] text = some (before, after) ↔ text = before ++ p :: after ∧ p ∉ before := by
  rw [breakOn_eq_some_iff, not_occurs_iff, List.dropLast_singleton, List.append_nil,
    List.singleton_infix_iff]
  rfl

/-- A text without a character is not cut at it. -/
theorem breakOn_singleton_eq_none_iff {p : Char} {text : List Char} :
    breakOn [p] text = none ↔ p ∉ text := by
  rw [← List.singleton_infix_iff, ← not_occurs_iff, occurs, Option.isSome_eq_false_iff,
    Option.isNone_iff_eq_none]

end TicketPress.Text
