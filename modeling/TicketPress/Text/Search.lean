/-!
# Finding and replacing text

Search for one fixed piece of text inside another: the first occurrence, and
the replacement of all occurrences from left to right without overlap. All
functions recurse on the text itself.

`dropPrefix?_eq_some_iff` and `eq_of_breakOn` say that nothing is lost: the
parts found put together again are the text.
-/

namespace TicketPress.Text

/-- What follows `pat` at the start of the text, if the text starts with it. -/
def dropPrefix? : (pat text : List Char) → Option (List Char)
  | [], text => some text
  | _ :: _, [] => none
  | p :: pat, c :: text => if p = c then dropPrefix? pat text else none

theorem dropPrefix?_eq_some_iff {pat text rest : List Char} :
    dropPrefix? pat text = some rest ↔ text = pat ++ rest := by
  induction pat generalizing text with
  | nil => simp [dropPrefix?]
  | cons p pat ih =>
    cases text with
    | nil => simp [dropPrefix?]
    | cons c text =>
      by_cases h : p = c
      · simp [dropPrefix?, h, ih]
      · simp [dropPrefix?, h, Ne.symm h]

/-- The text before and after the first occurrence of `pat`. -/
def breakOn (pat : List Char) : List Char → Option (List Char × List Char)
  | [] => if pat = [] then some ([], []) else none
  | c :: text =>
    match dropPrefix? pat (c :: text) with
    | some rest => some ([], rest)
    | none => (breakOn pat text).map fun (before, after) => (c :: before, after)

theorem eq_of_breakOn {pat text before after : List Char}
    (h : breakOn pat text = some (before, after)) : text = before ++ pat ++ after := by
  induction text generalizing before with
  | nil =>
    simp only [breakOn] at h
    split at h <;> simp_all
  | cons c text ih =>
    simp only [breakOn] at h
    split at h
    · rename_i rest hrest
      obtain ⟨rfl, rfl⟩ : [] = before ∧ rest = after := by simpa using h
      simpa using dropPrefix?_eq_some_iff.mp hrest
    · simp only [Option.map_eq_some_iff, Prod.exists] at h
      obtain ⟨a, b, hab, hcons⟩ := h
      obtain ⟨rfl, rfl⟩ : c :: a = before ∧ b = after := by simpa using hcons
      simp [ih hab]

/-- What comes after an occurrence is shorter than the text. -/
theorem length_lt_of_breakOn {p : Char} {pat text before after : List Char}
    (h : breakOn (p :: pat) text = some (before, after)) : after.length < text.length := by
  rw [eq_of_breakOn h]
  simp only [List.length_append, List.length_cons]
  omega

/-- Whether `pat` stands somewhere in the text. -/
def occurs (pat text : List Char) : Bool := (breakOn pat text).isSome

/-- `replaceFrom` after a match: `skip` counts the characters of the match
that are still to be passed over. -/
def replaceFrom (pat new : List Char) : (skip : Nat) → List Char → List Char
  | _, [] => []
  | skip + 1, _ :: text => replaceFrom pat new skip text
  | 0, c :: text =>
    if (dropPrefix? pat (c :: text)).isSome then
      new ++ replaceFrom pat new (pat.length - 1) text
    else
      c :: replaceFrom pat new 0 text

/-- The text with every occurrence of `pat` replaced by `new`, read from left
to right; what has been put in is not read again. `pat` is not empty. -/
def replaceAll (pat new text : List Char) : List Char := replaceFrom pat new 0 text

/-- The word in small letters; only ASCII letters have two cases here. -/
def lowered (word : List Char) : List Char := word.map Char.toLower

/-- Equality of two words when capital and small ASCII letters count as one. -/
def sameLetters (a b : List Char) : Bool := lowered a == lowered b

end TicketPress.Text
