import TicketPress.Instruction.Basic
import TicketPress.Proofs.Text.Replacement
import TicketPress.Script.Recovery

/-!
# What a literal keeps

A literal writes its body between quotes without changing it, so a body is
read back only if the reader of a line gets through it: it must not end the
line, not start a remark, and not close the quotes early or swallow the closing
one. `ScriptSafe` says this of a body. Content is turned into a body by writing
each line feed as the two characters `\n`, and `Representable` content is what
comes back from its own literal.

`unescaped_escaped` and `escaped_unescaped` are the two round trips, and
`not_occurs_unescaped` says why the first one needs its hypothesis.
-/

namespace TicketPress

/-! ## Line feeds in a body -/

/-- The text with every line feed written as it is in a literal. -/
def escaped (text : List Char) : List Char := Text.replaceAll ['\n'] escapedLineFeed text

/-- The body with every written line feed turned into a line feed. -/
def unescaped (body : List Char) : List Char := Text.replaceAll escapedLineFeed ['\n'] body

theorem Literal.body_ofContent (content : String) :
    (Literal.ofContent content).body = escaped content.toList := rfl

theorem Literal.toList_content (literal : Literal) :
    literal.content.toList = unescaped literal.body := String.toList_ofList

@[simp] theorem escaped_nil : escaped [] = [] := rfl

@[simp] theorem escaped_lineFeed (text : List Char) :
    escaped ('\n' :: text) = '\\' :: 'n' :: escaped text := rfl

theorem escaped_cons {c : Char} (h : c ≠ '\n') (text : List Char) :
    escaped (c :: text) = c :: escaped text :=
  Text.replaceAll_singleton_of_ne h escapedLineFeed text

/-- A body never holds a line feed. -/
theorem lineFeed_not_mem_escaped (text : List Char) : '\n' ∉ escaped text := by
  induction text with
  | nil => simp
  | cons c text ih =>
      by_cases hc : c = '\n'
      · subst hc
        simpa using ih
      · rw [escaped_cons hc]
        simpa using ⟨fun h => hc h.symm, ih⟩

/-- A body starts with the letter of a written line feed only if the text
does: no line feed becomes that letter. -/
theorem head?_escaped_eq_n_iff (text : List Char) :
    (escaped text).head? = some 'n' ↔ text.head? = some 'n' := by
  cases text with
  | nil => rfl
  | cons c text =>
      by_cases hc : c = '\n'
      · subst hc
        simp
      · rw [escaped_cons hc]
        simp

/-! ### Reading line feeds -/

@[simp] theorem unescaped_nil : unescaped [] = [] := rfl

@[simp] theorem unescaped_escapedLineFeed (body : List Char) :
    unescaped ('\\' :: 'n' :: body) = '\n' :: unescaped body := rfl

theorem unescaped_cons {c : Char} {body : List Char}
    (h : ¬ (c = '\\' ∧ body.head? = some 'n')) :
    unescaped (c :: body) = c :: unescaped body :=
  Text.replaceAll_pair_of_not h ['\n']

/-- Content without a written line feed comes back from its body. -/
theorem unescaped_escaped {text : List Char}
    (h : Text.occurs escapedLineFeed text = false) : unescaped (escaped text) = text := by
  induction text with
  | nil => rfl
  | cons c text ih =>
      rw [← Bool.not_eq_true, Text.occurs_cons, not_or, Bool.not_eq_true] at h
      by_cases hc : c = '\n'
      · subst hc
        rw [escaped_lineFeed, unescaped_escapedLineFeed, ih h.2]
      · have hpre : ¬ (c = '\\' ∧ (escaped text).head? = some 'n') := by
          rw [head?_escaped_eq_n_iff, ← Text.pair_prefix_cons_iff (p := '\\') (q := 'n')]
          exact h.1
        rw [escaped_cons hc, unescaped_cons hpre, ih h.2]

/-- A body without line feeds comes back from its content. -/
theorem escaped_unescaped {body : List Char} (h : '\n' ∉ body) :
    escaped (unescaped body) = body := by
  induction body using Text.pair_induction '\\' 'n' with
  | nil => rfl
  | pair body ih =>
      rw [unescaped_escapedLineFeed, escaped_lineFeed, ih (by simpa using h)]
  | char c body hpair ih =>
      obtain ⟨hc, hbody⟩ : '\n' ≠ c ∧ '\n' ∉ body := by simpa using h
      rw [unescaped_cons hpair, escaped_cons (Ne.symm hc), ih hbody]

/-- What is read from a body starts with the letter of a written line feed
only if the body does. -/
theorem head?_unescaped_eq_n_iff (body : List Char) :
    (unescaped body).head? = some 'n' ↔ body.head? = some 'n' := by
  induction body using Text.pair_induction '\\' 'n' with
  | nil => rfl
  | pair body ih => simp
  | char c body hpair ih =>
      rw [unescaped_cons hpair]
      simp

/-- Content that was read from a body holds no written line feed. -/
theorem not_occurs_unescaped (body : List Char) :
    Text.occurs escapedLineFeed (unescaped body) = false := by
  induction body using Text.pair_induction '\\' 'n' with
  | nil => rfl
  | pair body ih =>
      rw [unescaped_escapedLineFeed, ← Bool.not_eq_true, Text.occurs_cons, not_or,
        Bool.not_eq_true, escapedLineFeed, Text.pair_prefix_cons_iff]
      exact ⟨by simp, ih⟩
  | char c body hpair ih =>
      rw [unescaped_cons hpair, ← Bool.not_eq_true, Text.occurs_cons, not_or,
        Bool.not_eq_true, escapedLineFeed, Text.pair_prefix_cons_iff, head?_unescaped_eq_n_iff]
      exact ⟨hpair, ih⟩

/-! ## Bodies between quotes -/

/-- Whether a scan that takes the next character along with every backslash
meets no quote and stops exactly at the end. -/
def isQuotable : List Char → Bool
  | [] => true
  | '"' :: _ => false
  | ['\\'] => false
  | '\\' :: _ :: body => isQuotable body
  | _ :: body => isQuotable body

/-- A character that is no backslash, as the scans tell it from one: neither at
the end nor before another character. -/
theorem ne_backslash {c : Char} {rest : List Char} (hend : c = '\\' → rest = [] → False)
    (hescape : ∀ d more, c = '\\' → rest = d :: more → False) : c ≠ '\\' := by
  rintro rfl
  cases rest with
  | nil => exact hend rfl rfl
  | cons d more => exact hescape d more rfl rfl

theorem isQuotable_cons {c : Char} (hquote : c ≠ '"') (hescape : c ≠ '\\') (body : List Char) :
    isQuotable (c :: body) = isQuotable body := by
  rw [isQuotable]
  · exact hquote
  · intro hc _
    exact hescape hc
  · intro _ _ hc _
    exact hescape hc

theorem closeQuote_cons {c : Char} (hquote : c ≠ '"') (hescape : c ≠ '\\') (line : List Char) :
    closeQuote (c :: line) = (closeQuote line).map fun found => (c :: found.1, found.2) := by
  rw [closeQuote]
  · exact hquote
  · intro hc _
    exact hescape hc
  · intro _ _ hc _
    exact hescape hc

/-- A body that the scan gets through is closed by the quote after it. -/
theorem closeQuote_append {body : List Char} (h : isQuotable body = true)
    (rest : List Char) : closeQuote (body ++ '"' :: rest) = some (body, rest) := by
  fun_induction isQuotable body with
  | case1 => simp [closeQuote]
  | case2 => simp at h
  | case3 => simp at h
  | case4 c body ih => simp [closeQuote, ih h]
  | case5 c body hquote hend hescape ih =>
      rw [List.cons_append, closeQuote_cons hquote (ne_backslash hend hescape), ih h]
      rfl

/-- A quote closes only bodies that the scan gets through. -/
theorem isQuotable_of_closeQuote {line body rest : List Char}
    (h : closeQuote line = some (body, rest)) : isQuotable body = true := by
  fun_induction closeQuote line generalizing body with
  | case1 => simp at h
  | case2 line =>
      obtain ⟨rfl, -⟩ : [] = body ∧ line = rest := by simpa using h
      rfl
  | case3 => simp at h
  | case4 c line ih =>
      simp only [Option.map_eq_some_iff, Prod.exists] at h
      obtain ⟨body', rest', hclose, hpair⟩ := h
      obtain ⟨rfl, rfl⟩ : '\\' :: c :: body' = body ∧ rest' = rest := by simpa using hpair
      rw [isQuotable]
      exact ih hclose
  | case5 c line hquote hend hescape ih =>
      simp only [Option.map_eq_some_iff, Prod.exists] at h
      obtain ⟨body', rest', hclose, hpair⟩ := h
      obtain ⟨rfl, rfl⟩ : c :: body' = body ∧ rest' = rest := by simpa using hpair
      rw [isQuotable_cons hquote (ne_backslash hend hescape)]
      exact ih hclose

/-- A body that a script line gives back: it stays on its line, starts no
remark, and is closed by the quote after it. -/
structure ScriptSafe (body : List Char) : Prop where
  oneLine : '\n' ∉ body
  noRemark : Text.occurs remarkMark body = false
  quotable : isQuotable body = true

instance (body : List Char) : Decidable (ScriptSafe body) :=
  decidable_of_iff
    ('\n' ∉ body ∧ Text.occurs remarkMark body = false ∧ isQuotable body = true)
    ⟨fun ⟨h, hremark, hquote⟩ => ⟨h, hremark, hquote⟩, fun ⟨h, hremark, hquote⟩ =>
      ⟨h, hremark, hquote⟩⟩

/-- Content that comes back from its literal: it holds no written line feed,
and its body is safe. -/
structure Representable (content : String) : Prop where
  noEscape : Text.occurs escapedLineFeed content.toList = false
  safe : ScriptSafe (escaped content.toList)

instance (content : String) : Decidable (Representable content) :=
  decidable_of_iff
    (Text.occurs escapedLineFeed content.toList = false ∧ ScriptSafe (escaped content.toList))
    ⟨fun ⟨h, hsafe⟩ => ⟨h, hsafe⟩, fun ⟨h, hsafe⟩ => ⟨h, hsafe⟩⟩

theorem content_ofContent {content : String} (h : Representable content) :
    (Literal.ofContent content).content = content := by
  rw [← String.toList_inj, Literal.toList_content, Literal.body_ofContent,
    unescaped_escaped h.noEscape]

/-- Content read from a safe body is representable. -/
theorem representable_content {literal : Literal} (h : ScriptSafe literal.body) :
    Representable literal.content where
  noEscape := by
    rw [Literal.toList_content]
    exact not_occurs_unescaped literal.body
  safe := by
    rw [Literal.toList_content, escaped_unescaped h.oneLine]
    exact h

/-- The file an image without a name is loaded from has a safe name. -/
theorem scriptSafe_fallbackFile : ScriptSafe fallbackFile.toList := by decide

end TicketPress
