import TicketPress.Script.Token

/-!
# Trimming

Trimming takes the blanks off the ends of a text and nothing else. A character
that is no blank therefore protects all that stands on its other side:
`trimEnd_append_cons` and `trimStart_cons` say so, and they are how a line is
trimmed without being looked at as a whole.
-/

namespace TicketPress.Text

/-! ## The end of a text -/

@[simp] theorem trimEnd_nil : trimEnd [] = [] := rfl

/-- Trimming at the end, from the front: a character stays unless all from it
on is blank. -/
theorem trimEnd_cons (c : Char) (text : List Char) :
    trimEnd (c :: text) =
      if trimEnd text = [] ∧ isBlank c = true then [] else c :: trimEnd text := by
  simp only [trimEnd, List.reverse_cons, List.dropWhile_append, List.isEmpty_iff,
    List.reverse_eq_nil_iff]
  by_cases htext : text.reverse.dropWhile isBlank = []
  · cases hc : isBlank c with
    | true => simp [htext, hc]
    | false => simp [htext, hc]
  · simp [htext]

/-- A text of blanks is trimmed away. -/
theorem trimEnd_eq_nil_iff {text : List Char} :
    trimEnd text = [] ↔ ∀ c ∈ text, isBlank c = true := by
  induction text with
  | nil => simp
  | cons c text ih =>
      rw [trimEnd_cons]
      by_cases htext : trimEnd text = [] ∧ isBlank c = true
      · rw [if_pos htext]
        simpa using ⟨htext.2, ih.mp htext.1⟩
      · rw [if_neg htext]
        constructor
        · intro hnil
          exact absurd hnil (by simp)
        · intro hall
          have hc : isBlank c = true := hall c (by simp)
          have hrest : trimEnd text = [] := ih.mpr fun d hd => hall d (by simp [hd])
          exact absurd ⟨hrest, hc⟩ htext

theorem trimEnd_append_of_ne_nil {b : List Char} (h : trimEnd b ≠ []) (a : List Char) :
    trimEnd (a ++ b) = a ++ trimEnd b := by
  induction a with
  | nil => rfl
  | cons c a ih =>
      rw [List.cons_append, trimEnd_cons, ih, if_neg (by simp [h]), List.cons_append]

/-- A character that is no blank protects what stands before it. -/
theorem trimEnd_append_cons {c : Char} (h : isBlank c = false) (a b : List Char) :
    trimEnd (a ++ c :: b) = a ++ c :: trimEnd b := by
  have hcons : trimEnd (c :: b) = c :: trimEnd b := by
    rw [trimEnd_cons, if_neg (by simp [h])]
  rw [trimEnd_append_of_ne_nil (by simp [hcons]), hcons]

theorem trimEnd_concat {c : Char} (h : isBlank c = false) (a : List Char) :
    trimEnd (a ++ [c]) = a ++ [c] := trimEnd_append_cons h a []

theorem trimEnd_append_blanks {blanks : List Char} (h : ∀ c ∈ blanks, isBlank c = true)
    (a : List Char) : trimEnd (a ++ blanks) = trimEnd a := by
  induction a with
  | nil => simpa using trimEnd_eq_nil_iff.mpr h
  | cons c a ih => rw [List.cons_append, trimEnd_cons, trimEnd_cons, ih]

@[simp] theorem trimEnd_trimEnd (text : List Char) : trimEnd (trimEnd text) = trimEnd text := by
  induction text with
  | nil => rfl
  | cons c text ih =>
      rw [trimEnd_cons]
      by_cases hall : trimEnd text = [] ∧ isBlank c = true
      · rw [if_pos hall, trimEnd_nil]
      · rw [if_neg hall, trimEnd_cons, ih, if_neg hall]

/-- Only blanks are taken off the end. -/
theorem exists_eq_trimEnd_append (text : List Char) :
    ∃ blanks, (∀ c ∈ blanks, isBlank c = true) ∧ text = trimEnd text ++ blanks := by
  refine ⟨(text.reverse.takeWhile isBlank).reverse, ?_, ?_⟩
  · intro c hc
    exact List.all_eq_true.mp List.all_takeWhile c (List.mem_reverse.mp hc)
  · rw [trimEnd, ← List.reverse_append, List.takeWhile_append_dropWhile, List.reverse_reverse]

theorem trimEnd_isPrefix (text : List Char) : trimEnd text <+: text := by
  obtain ⟨blanks, -, htext⟩ := exists_eq_trimEnd_append text
  exact ⟨blanks, htext.symm⟩

/-- What is left of a text ends in a character that is no blank. -/
theorem exists_concat_of_trimEnd_eq {text : List Char} (h : trimEnd text = text)
    (hne : text ≠ []) : ∃ front c, text = front ++ [c] ∧ isBlank c = false := by
  cases hlast : text.getLast? with
  | none => exact absurd (List.getLast?_eq_none_iff.mp hlast) hne
  | some c =>
      obtain ⟨front, rfl⟩ := List.getLast?_eq_some_iff.mp hlast
      refine ⟨front, c, rfl, ?_⟩
      cases hc : isBlank c with
      | false => rfl
      | true =>
          rw [trimEnd_append_blanks (by simpa using hc)] at h
          have hshort := (trimEnd_isPrefix front).length_le
          rw [h, List.length_append, List.length_singleton] at hshort
          omega

/-! ## The start of a text -/

/-- A character that is no blank protects what stands behind it. -/
theorem trimStart_cons {c : Char} (h : isBlank c = false) (text : List Char) :
    trimStart (c :: text) = c :: text := by
  rw [trimStart, List.dropWhile_cons, if_neg (by simp [h])]

/-- Only blanks are taken off the start. -/
theorem exists_eq_append_trimStart (text : List Char) :
    ∃ blanks, (∀ c ∈ blanks, isBlank c = true) ∧ text = blanks ++ trimStart text := by
  refine ⟨text.takeWhile isBlank, fun c hc => ?_, ?_⟩
  · exact List.all_eq_true.mp List.all_takeWhile c hc
  · rw [trimStart, List.takeWhile_append_dropWhile]

theorem isBlank_of_head?_trimStart {text : List Char} {c : Char}
    (h : (trimStart text).head? = some c) : isBlank c = false := by
  have hstop := List.head?_dropWhile_not isBlank text
  rw [trimStart] at h
  rwa [h] at hstop

/-! ## Both ends -/

/-- Blanks at the end do not matter for what is left of a text. -/
@[simp] theorem trim_trimEnd (text : List Char) : trim (trimEnd text) = trim text := by
  induction text with
  | nil => rfl
  | cons c text ih =>
      rw [trimEnd_cons]
      by_cases hall : trimEnd text = [] ∧ isBlank c = true
      · rw [if_pos hall, trim, trimStart, trim, trimStart, List.dropWhile_cons, if_pos hall.2]
        rw [hall.1] at ih
        exact ih
      · rw [if_neg hall]
        simp only [trim, trimStart, List.dropWhile_cons] at ih ⊢
        cases hc : isBlank c with
        | true => simpa using ih
        | false => simp [trimEnd_cons, hc]

theorem trim_eq_self {text : List Char} (h : ∀ c ∈ text, isBlank c = false) :
    trim text = text := by
  have hstart : trimStart text = text := by
    cases text with
    | nil => rfl
    | cons c text => simp [trimStart, h c (by simp)]
  have hend : text.reverse.dropWhile isBlank = text.reverse := by
    cases hrev : text.reverse with
    | nil => rfl
    | cons c rest =>
        have hmem : c ∈ text := List.mem_reverse.mp (hrev ▸ List.mem_cons_self ..)
        simp [h c hmem]
  rw [trim, hstart, trimEnd, hend, List.reverse_reverse]

/-! ## Characters of words -/

/-- A character of a word has a code point below those of the wide blanks. -/
theorem isBlank_of_isWordChar {c : Char} (h : isWordChar c = true) : isBlank c = false := by
  have hcode : (48 ≤ c.toNat ∧ c.toNat ≤ 57) ∨ (65 ≤ c.toNat ∧ c.toNat ≤ 122) := by
    have hclasses : ((decide (c.val ≥ 65 ∧ c.val ≤ 90) || (c.val ≥ 97 && c.val ≤ 122)) ||
        (c.val ≥ 48 && c.val ≤ 57) || c == '_') = true := h
    simp only [Bool.or_eq_true, Bool.and_eq_true, decide_eq_true_eq, beq_iff_eq, ge_iff_le,
      UInt32.le_iff_toNat_le, UInt32.reduceToNat, Char.toNat_val] at hclasses
    rcases hclasses with hletter | rfl
    · omega
    · decide
  simp only [isBlank, inRanges, blankRanges, List.any_cons, List.any_nil, Bool.or_false,
    Bool.or_eq_false_iff, Bool.and_eq_false_iff, decide_eq_false_iff_not]
  omega

end TicketPress.Text
