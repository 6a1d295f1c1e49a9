import TicketPress.Json.Reader

/-!
# Reading a numeral where more follows

A numeral ends where a character stands that cannot go on with it, and its
readers look no further than that: what they make of a text they also make of
it when something follows. There is one such lemma for each reader, down to
`readValue_append`, with which a numeral that is read by itself is also read
inside a document.
-/

namespace TicketPress.Json

/-! ## Where a numeral ends -/

/-- Whether a numeral that came before ends here. -/
def EndsNumeral : List Char → Prop
  | [] => True
  | c :: _ => Decimal.digit? 10 c = none ∧ c ≠ '.' ∧ c ≠ 'e' ∧ c ≠ 'E'

section Append

variable {text left rest : List Char} {digits : List Nat} (hrest : EndsNumeral rest)
include hrest

theorem takeDigits_append (h : takeDigits text = (digits, left)) :
    takeDigits (text ++ rest) = (digits, left ++ rest) := by
  induction text generalizing digits with
  | nil =>
    cases h
    cases rest with
    | nil => rfl
    | cons c rest => simp [takeDigits, hrest.1]
  | cons c text ih =>
    simp only [List.cons_append, takeDigits] at h ⊢
    cases hd : Decimal.digit? 10 c with
    | none =>
      simp only [hd, Prod.mk.injEq] at h ⊢
      obtain ⟨rfl, rfl⟩ := h
      exact ⟨rfl, rfl⟩
    | some d =>
      simp only [hd, Prod.mk.injEq] at h ⊢
      obtain ⟨rfl, rfl⟩ := h
      rw [ih rfl]
      exact ⟨rfl, rfl⟩

theorem readWhole_append (h : readWhole text = .ok (digits, left)) :
    readWhole (text ++ rest) = .ok (digits, left ++ rest) := by
  obtain ⟨read, stop, hread⟩ : ∃ read stop, takeDigits text = (read, stop) := ⟨_, _, rfl⟩
  simp only [readWhole, hread] at h
  simp only [readWhole, takeDigits_append hrest hread]
  split at h
  · cases h
  · rename_i heq
    cases heq
    cases h
    rfl
  · cases h
  · rename_i hsome hzero heq
    cases heq
    cases h
    split <;> simp_all

theorem readFraction_append (h : readFraction text = .ok (digits, left)) :
    readFraction (text ++ rest) = .ok (digits, left ++ rest) := by
  unfold readFraction at h
  split at h
  · rename_i text
    obtain ⟨read, stop, hread⟩ : ∃ read stop, takeDigits text = (read, stop) := ⟨_, _, rfl⟩
    simp only [hread] at h
    simp only [List.cons_append, readFraction, takeDigits_append hrest hread]
    split at h <;> simp_all
  · rename_i hpoint
    cases h
    unfold readFraction
    split
    · rename_i rest' heq
      cases text with
      | nil => exact absurd (heq ▸ hrest : EndsNumeral ('.' :: rest')).2.1 (by simp)
      | cons c text =>
        cases heq
        exact absurd rfl (hpoint text)
    · rfl

theorem readExponentDigits_append {negative : Bool} {exponent : Option Int}
    (h : readExponentDigits negative text = .ok (exponent, left)) :
    readExponentDigits negative (text ++ rest) = .ok (exponent, left ++ rest) := by
  obtain ⟨read, stop, hread⟩ : ∃ read stop, takeDigits text = (read, stop) := ⟨_, _, rfl⟩
  simp only [readExponentDigits, hread] at h
  simp only [readExponentDigits, takeDigits_append hrest hread]
  split at h <;> simp_all

theorem readExponent_append {exponent : Option Int}
    (h : readExponent text = .ok (exponent, left)) :
    readExponent (text ++ rest) = .ok (exponent, left ++ rest) := by
  cases text with
  | nil =>
    cases h
    cases rest with
    | nil => rfl
    | cons c rest => simp [readExponent, hrest.2.2.1, hrest.2.2.2]
  | cons c text =>
    simp only [List.cons_append, readExponent] at h ⊢
    split
    · rename_i hexponent
      rw [if_pos hexponent] at h
      split at h
      · exact readExponentDigits_append hrest h
      · exact readExponentDigits_append hrest h
      · rename_i hplus hminus
        have hdigits := readExponentDigits_append hrest h
        cases text with
        | nil => cases h
        | cons sign text =>
          have hplus : sign ≠ '+' := fun heq => hplus text (heq ▸ rfl)
          have hminus : sign ≠ '-' := fun heq => hminus text (heq ▸ rfl)
          simpa [hplus, hminus] using hdigits
    · rename_i hexponent
      rw [if_neg hexponent] at h
      cases h
      rfl

theorem readMagnitude_append {negative : Bool} {numeral : Numeral}
    (h : readMagnitude negative text = .ok (numeral, left)) :
    readMagnitude negative (text ++ rest) = .ok (numeral, left ++ rest) := by
  unfold readMagnitude at h ⊢
  rcases hwhole : readWhole text with stop | ⟨whole, afterWhole⟩
  · simp [hwhole, Bind.bind, Except.bind] at h
  rcases hfraction : readFraction afterWhole with stop | ⟨fraction, afterFraction⟩
  · simp [hwhole, hfraction, Bind.bind, Except.bind] at h
  rcases hexponent : readExponent afterFraction with stop | ⟨exponent, afterExponent⟩
  · simp [hwhole, hfraction, hexponent, Bind.bind, Except.bind] at h
  simp only [hwhole, hfraction, hexponent, Bind.bind, Except.bind, Pure.pure, Except.pure] at h
  cases h
  simp only [readWhole_append hrest hwhole, readFraction_append hrest hfraction,
    readExponent_append hrest hexponent, Bind.bind, Except.bind, Pure.pure, Except.pure]

end Append

/-! ## The sign of a numeral -/

theorem readNumeral_of_minus {text left : List Char} {numeral : Numeral}
    (h : readMagnitude true text = .ok (numeral, left)) :
    readNumeral ('-' :: text) = (.number numeral, some left) := by
  simp only [readNumeral, h]

theorem readNumeral_of_magnitude {text left : List Char} {numeral : Numeral}
    (hsign : text.head? ≠ some '-') (h : readMagnitude false text = .ok (numeral, left)) :
    readNumeral text = (.number numeral, some left) := by
  unfold readNumeral
  split
  · simp at hsign
  · simp only [h]

theorem readNumeral_cases {text left : List Char} {draft : Draft}
    (h : readNumeral text = (draft, some left)) :
    ∃ numeral, draft = .number numeral ∧
      ((∃ body, text = '-' :: body ∧ readMagnitude true body = .ok (numeral, left)) ∨
        (text.head? ≠ some '-' ∧ readMagnitude false text = .ok (numeral, left))) := by
  unfold readNumeral at h
  split at h
  · rename_i body
    rcases hbody : readMagnitude true body with stop | ⟨numeral, stop⟩
    · simp [hbody, halted] at h
    · simp only [hbody, Prod.mk.injEq, Option.some.injEq] at h
      obtain ⟨rfl, rfl⟩ := h
      exact ⟨numeral, rfl, .inl ⟨body, rfl, hbody⟩⟩
  · rename_i hsign
    rcases hbody : readMagnitude false text with stop | ⟨numeral, stop⟩
    · simp [hbody, halted] at h
    · simp only [hbody, Prod.mk.injEq, Option.some.injEq] at h
      obtain ⟨rfl, rfl⟩ := h
      have hhead : text.head? ≠ some '-' := by
        cases text with
        | nil => simp
        | cons c text => exact fun heq => hsign text (by simp_all)
      exact ⟨numeral, rfl, .inr ⟨hhead, rfl⟩⟩

/-- What a numeral is read as does not depend on what follows it. -/
theorem readNumeral_append {text left rest : List Char} {draft : Draft}
    (hrest : EndsNumeral rest) (h : readNumeral text = (draft, some left)) :
    readNumeral (text ++ rest) = (draft, some (left ++ rest)) := by
  obtain ⟨numeral, rfl, ⟨body, rfl, hbody⟩ | ⟨hsign, hbody⟩⟩ := readNumeral_cases h
  · exact readNumeral_of_minus (readMagnitude_append hrest hbody)
  · refine readNumeral_of_magnitude ?_ (readMagnitude_append hrest hbody)
    cases text with
    | nil => cases hbody
    | cons c text => exact hsign

/-! ## Numerals as values -/

/-- Whether a numeral can start with the character: its sign or a digit. -/
def startsNumeral (c : Char) : Bool := c == '-' || (Decimal.digit? 10 c).isSome

theorem ne_of_startsNumeral {c : Char} (hc : startsNumeral c = true) {others : List Char}
    (hall : others.all (fun d => !startsNumeral d) = true) : ∀ d ∈ others, c ≠ d := by
  rintro d hd rfl
  have hother := List.all_eq_true.mp hall c hd
  rw [hc] at hother
  exact Bool.false_ne_true hother

theorem exists_cons_of_readNumeral {text left : List Char} {draft : Draft}
    (h : readNumeral text = (draft, some left)) :
    ∃ c body, text = c :: body ∧ startsNumeral c = true := by
  obtain ⟨numeral, rfl, ⟨body, rfl, -⟩ | ⟨-, hbody⟩⟩ := readNumeral_cases h
  · exact ⟨'-', body, rfl, rfl⟩
  · cases text with
    | nil => cases hbody
    | cons c body =>
      refine ⟨c, body, rfl, ?_⟩
      cases hd : Decimal.digit? 10 c with
      | some d => simp [startsNumeral, hd]
      | none => simp [readMagnitude, readWhole, takeDigits, hd, Bind.bind, Except.bind] at hbody

theorem skipSpace_of_readNumeral {text left : List Char} {draft : Draft}
    (h : readNumeral text = (draft, some left)) : skipSpace text = text := by
  obtain ⟨c, body, rfl, hc⟩ := exists_cons_of_readNumeral h
  have hother := ne_of_startsNumeral hc (by decide : [' ', '\t', '\n', '\r'].all _ = true)
  have hspace : isSpace c = false := by simp [isSpace, hother]
  simp [skipSpace, hspace]

theorem readValue_of_readNumeral {text left : List Char} {draft : Draft}
    (h : readNumeral (skipSpace text) = (draft, some left)) (fuel : Nat) :
    readValue (fuel + 1) text = (draft, some left) := by
  obtain ⟨c, body, hbody, hc⟩ := exists_cons_of_readNumeral h
  rw [hbody] at h
  have hnumeral : c = '-' ∨ (Decimal.digit? 10 c).isSome = true := by
    simpa [startsNumeral] using hc
  have hother := ne_of_startsNumeral hc
    (by decide : ['"', '[', '\x7b', 'n', 't', 'f'].all _ = true)
  simp [readValue, hbody, hnumeral, h, hother]

theorem readNumeral_of_readValue {fuel : Nat} {text left : List Char} {numeral : Numeral}
    (h : readValue fuel text = (.number numeral, some left)) :
    readNumeral (skipSpace text) = (.number numeral, some left) := by
  have hconstant : ∀ {word text : List Char} {value : Draft},
      readConstant word value text = (.number numeral, some left) → value = .number numeral := by
    intro word text value h
    unfold readConstant at h
    split at h
    · exact (Prod.mk.inj h).1
    · cases h
  cases fuel with
  | zero => cases h
  | succ fuel =>
    unfold readValue at h
    split at h
    · cases h
    · unfold readText at h
      split at h <;> cases h
    · split at h <;> cases h
    · split at h <;> cases h
    · cases hconstant h
    · cases hconstant h
    · cases hconstant h
    · rename_i hskip
      split at h
      · rw [hskip]
        exact h
      · cases h

theorem skipSpace_append (a b : List Char) :
    skipSpace (a ++ b) = if (skipSpace a).isEmpty then skipSpace b else skipSpace a ++ b :=
  List.dropWhile_append

/-- A numeral that is read as a value by itself is read with anything behind
it that ends it. -/
theorem readValue_append {fuel : Nat} {text left rest : List Char} {numeral : Numeral}
    (hrest : EndsNumeral rest) (h : readValue fuel text = (.number numeral, some left))
    (fuel' : Nat) :
    readValue (fuel' + 1) (text ++ rest) = (.number numeral, some (left ++ rest)) := by
  have hread := readNumeral_of_readValue h
  obtain ⟨c, body, hbody, -⟩ := exists_cons_of_readNumeral hread
  refine readValue_of_readNumeral ?_ fuel'
  rw [skipSpace_append, hbody, List.isEmpty_cons, if_neg Bool.false_ne_true, ← hbody]
  exact readNumeral_append hrest hread

end TicketPress.Json
