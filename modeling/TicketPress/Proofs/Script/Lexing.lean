import TicketPress.Proofs.Instruction.Literal
import TicketPress.Proofs.Script.Number
import TicketPress.Script.Call

/-!
# Lexemes laid out

A list of lexemes is written by putting their spellings one after another, with
a blank after each comma. The lexer gives the list back if every lexeme is
legible, that is spelled as the lexer itself would spell it, and no word runs
into the next one: `lexemes_laidOut`. What follows on the line is arbitrary.

The other way round, `of_text_mem_lexemes` says what is known of a text the
lexer finds.
-/

namespace TicketPress

/-! ## One lexeme at a time -/

/-- The offset moves the tokens of a line and leaves their lexemes alone. -/
theorem map_lexeme_tokensFrom (line : List Char) : ∀ offset,
    (tokensFrom offset line).map Token.lexeme = lexemes line := by
  have hall : ∀ a b, (tokensFrom a line).map Token.lexeme =
      (tokensFrom b line).map Token.lexeme := by
    intro a
    fun_induction tokensFrom a line with
    | case1 a =>
        intro b
        rw [tokensFrom]
    | case2 a c line hblank ih =>
        intro b
        rw [tokensFrom, if_pos hblank]
        exact ih _
    | case3 a c line hblank next ih =>
        intro b
        rw [tokensFrom, if_neg hblank]
        simp only [List.map_cons, List.cons.injEq]
        exact ⟨rfl, ih _⟩
  exact fun offset => hall offset 0

@[simp] theorem lexemes_nil : lexemes [] = [] := by
  rw [lexemes, tokens, tokensFrom]
  rfl

theorem lexemes_blank {c : Char} (h : Text.isAsciiBlank c = true) (line : List Char) :
    lexemes (c :: line) = lexemes line := by
  rw [lexemes, tokens, tokensFrom, if_pos h, map_lexeme_tokensFrom]

theorem lexemes_next {c : Char} (h : Text.isAsciiBlank c = false) (line : List Char) :
    lexemes (c :: line) = (nextLexeme c line).1 :: lexemes (nextLexeme c line).2 := by
  rw [lexemes, tokens, tokensFrom, if_neg (by simp [h]), List.map_cons, map_lexeme_tokensFrom]

/-- The lexemes of a line, by what stands at its start. -/
theorem lexemes_induction {motive : List Char → Prop} (nil : motive [])
    (blank : ∀ c line, Text.isAsciiBlank c = true → motive line → motive (c :: line))
    (next : ∀ c line, Text.isAsciiBlank c = false → motive (nextLexeme c line).2 →
      motive (c :: line)) (line : List Char) : motive line := by
  induction h : line.length using Nat.strongRecOn generalizing line with
  | ind n ih =>
      subst h
      match line with
      | [] => exact nil
      | c :: line =>
          cases hblank : Text.isAsciiBlank c with
          | true => exact blank c line hblank (ih line.length (by simp) line rfl)
          | false =>
              have hlt := length_nextLexeme_lt c line
              exact next c line hblank (ih _ (by simpa using hlt) _ rfl)

/-! ## Legible lexemes -/

/-- A lexeme spelled as the lexer finds it: a word is a run of characters of
words, and the quotes around a text close it. Stray characters are left out. -/
def Lexeme.Legible : Lexeme → Prop
  | .word spelling => IsWord spelling
  | .text body _ => isQuotable body = true
  | .stray _ => False
  | _ => True

/-- Whether the lexeme is a word. -/
def Lexeme.isWord : Lexeme → Bool
  | .word _ => true
  | _ => false

/-- Whether a line starts with a character of a word, so that a word before it
would go on. -/
def startsWord (line : List Char) : Bool := line.head?.any isWordChar

theorem isWordChar_of_mark? {c : Char} {mark : Lexeme} (h : mark? c = some mark) :
    isWordChar c = false := by
  unfold mark? at h
  split at h
  case h_6 => simp at h
  all_goals decide

/-- A character of a word is no blank and no mark. -/
theorem of_isWordChar {c : Char} (h : isWordChar c = true) :
    Text.isAsciiBlank c = false ∧ mark? c = none := by
  constructor
  · cases hb : Text.isAsciiBlank c with
    | false => rfl
    | true =>
        have hblank := Text.isBlank_of_isAsciiBlank hb
        rw [Text.isBlank_of_isWordChar h] at hblank
        exact absurd hblank (by simp)
  · cases hm : mark? c with
    | none => rfl
    | some mark =>
        rw [isWordChar_of_mark? hm] at h
        exact absurd h (by simp)

/-- No character is taken from a line that starts with none of a word. -/
theorem takeWhile_dropWhile_of_startsWord {line : List Char} (h : startsWord line = false) :
    line.takeWhile isWordChar = [] ∧ line.dropWhile isWordChar = line := by
  cases line with
  | nil => exact ⟨rfl, rfl⟩
  | cons d line =>
      have hd : isWordChar d = false := by simpa [startsWord] using h
      simp [hd]

theorem lexemes_word {spelling : List Char} (h : IsWord spelling) {line : List Char}
    (hline : startsWord line = false) :
    lexemes (spelling ++ line) = .word spelling :: lexemes line := by
  obtain ⟨hne, hall⟩ := h
  cases spelling with
  | nil => exact absurd rfl hne
  | cons c spelling =>
      have hc : isWordChar c = true := hall c (by simp)
      have hrest : ∀ d ∈ spelling, isWordChar d = true := by
        intro d hd
        exact hall d (by simp [hd])
      obtain ⟨hblank, hmark⟩ := of_isWordChar hc
      have hquote : c ≠ '"' := by
        rintro rfl
        exact absurd hc (by decide)
      have hdollar : c ≠ '$' := by
        rintro rfl
        exact absurd hc (by decide)
      rw [List.cons_append, lexemes_next hblank, nextLexeme, hmark]
      simp only [hquote, hdollar, hc, false_and, if_false, if_true,
        List.takeWhile_append_of_pos hrest, List.dropWhile_append_of_pos hrest,
        takeWhile_dropWhile_of_startsWord hline, List.append_nil]

theorem lexemes_text {body : List Char} (h : isQuotable body = true) (interpolated : Bool)
    (line : List Char) :
    lexemes ((Lexeme.text body interpolated).spelling ++ line) =
      .text body interpolated :: lexemes line := by
  have hclose := closeQuote_append h line
  cases interpolated with
  | false =>
      simp only [Lexeme.spelling, List.cons_append, List.append_assoc, List.nil_append]
      rw [lexemes_next (by decide), nextLexeme]
      simp [mark?, quotedLexeme, hclose]
  | true =>
      simp only [Lexeme.spelling, List.cons_append, List.append_assoc, List.nil_append]
      rw [lexemes_next (by decide), nextLexeme]
      simp [mark?, quotedLexeme, hclose]

/-- A legible lexeme at the start of a line is found, unless it is a word that
would go on. -/
theorem lexemes_spelling {lexeme : Lexeme} (h : lexeme.Legible) {line : List Char}
    (hline : lexeme.isWord = true → startsWord line = false) :
    lexemes (lexeme.spelling ++ line) = lexeme :: lexemes line := by
  cases lexeme with
  | word spelling => exact lexemes_word h (hline rfl)
  | text body interpolated => exact lexemes_text h interpolated line
  | stray spelling => exact absurd h id
  | openParen | closeParen | comma | dot | semicolon =>
      exact lexemes_next (by decide) line

/-! ## Lists of lexemes -/

/-- A lexeme as it is written in a list: a blank follows a comma. -/
def Lexeme.laidOut : Lexeme → List Char
  | .comma => [',', ' ']
  | lexeme => lexeme.spelling

theorem Lexeme.laidOut_eq_spelling {lexeme : Lexeme} (h : lexeme ≠ .comma) :
    lexeme.laidOut = lexeme.spelling := by
  cases lexeme with
  | comma => exact absurd rfl h
  | _ => rfl

/-- Lexemes written one after another. -/
def laidOut (list : List Lexeme) : List Char := list.flatMap Lexeme.laidOut

@[simp] theorem laidOut_nil : laidOut [] = [] := rfl

@[simp] theorem laidOut_cons (lexeme : Lexeme) (list : List Lexeme) :
    laidOut (lexeme :: list) = lexeme.laidOut ++ laidOut list := rfl

@[simp] theorem laidOut_append (a b : List Lexeme) :
    laidOut (a ++ b) = laidOut a ++ laidOut b := List.flatMap_append

/-- Whether every word of a list has a lexeme after it that is no word. -/
def wordsEnd : List Lexeme → Bool
  | [] => true
  | lexeme :: list =>
    (!lexeme.isWord || (list.head?.any fun next => !next.isWord)) && wordsEnd list

/-- A lexeme that is no word starts with no character of a word. -/
theorem startsWord_laidOut {lexeme : Lexeme} (h : lexeme.Legible)
    (hword : lexeme.isWord = false) (line : List Char) :
    startsWord (lexeme.laidOut ++ line) = false := by
  cases lexeme with
  | word spelling => exact absurd hword (by simp [Lexeme.isWord])
  | text body interpolated => cases interpolated <;> rfl
  | stray spelling => exact absurd h id
  | openParen | closeParen | comma | dot | semicolon => rfl

/-- After a word of a list stands a lexeme that is none. -/
theorem startsWord_of_wordsEnd {lexeme : Lexeme} {list : List Lexeme}
    (h : ∀ other ∈ list, other.Legible) (hwords : wordsEnd (lexeme :: list) = true)
    (hword : lexeme.isWord = true) (line : List Char) :
    startsWord (laidOut list ++ line) = false := by
  obtain ⟨next, hhead, hother⟩ : ∃ next, list.head? = some next ∧ next.isWord = false := by
    have hnext : (list.head?.any fun next => !next.isWord) = true := by
      simp only [wordsEnd, hword, Bool.not_true, Bool.false_or, Bool.and_eq_true] at hwords
      exact hwords.1
    simpa [Option.any_eq_true] using hnext
  obtain ⟨tail, rfl⟩ := List.head?_eq_some_iff.mp hhead
  rw [laidOut_cons, List.append_assoc]
  exact startsWord_laidOut (h next (by simp)) hother _

theorem wordsEnd_of_cons {lexeme : Lexeme} {list : List Lexeme}
    (h : wordsEnd (lexeme :: list) = true) : wordsEnd list = true := by
  rw [wordsEnd, Bool.and_eq_true] at h
  exact h.2

/-- A legible lexeme laid out is found, unless it is a word that would go on. -/
theorem lexemes_laidOut_append {lexeme : Lexeme} (h : lexeme.Legible) {line : List Char}
    (hline : lexeme.isWord = true → startsWord line = false) :
    lexemes (lexeme.laidOut ++ line) = lexeme :: lexemes line := by
  by_cases hcomma : lexeme = .comma
  · -- The blank after a comma belongs to the layout.
    subst hcomma
    rw [Lexeme.laidOut, List.cons_append, List.cons_append, List.nil_append,
      lexemes_next (by decide), nextLexeme]
    simp only [mark?]
    rw [lexemes_blank (by decide)]
  · rw [Lexeme.laidOut_eq_spelling hcomma, lexemes_spelling h hline]

/-- Legible lexemes are found as they were laid out. -/
theorem lexemes_laidOut {list : List Lexeme} (h : ∀ lexeme ∈ list, lexeme.Legible)
    (hwords : wordsEnd list = true) (line : List Char) :
    lexemes (laidOut list ++ line) = list ++ lexemes line := by
  induction list with
  | nil => rfl
  | cons lexeme list ih =>
      have hothers : ∀ other ∈ list, other.Legible := fun other hother => h other (by simp [hother])
      rw [laidOut_cons, List.append_assoc,
        lexemes_laidOut_append (h lexeme (by simp))
          fun hword => startsWord_of_wordsEnd hothers hwords hword line,
        ih hothers (wordsEnd_of_cons hwords), List.cons_append]

/-! ## Texts of a line -/

/-- A text after an opening quote is closed by a quote and stands on the line. -/
theorem of_quotedLexeme_eq_text {opening line body : List Char} {interpolated flag : Bool}
    (h : (quotedLexeme opening interpolated line).1 = .text body flag) :
    isQuotable body = true ∧ body <:+: line := by
  unfold quotedLexeme at h
  split at h
  · rename_i found rest hclose
    obtain ⟨rfl, -⟩ : found = body ∧ interpolated = flag := by simpa using h
    refine ⟨isQuotable_of_closeQuote hclose, ?_⟩
    rw [eq_of_closeQuote hclose]
    exact (List.prefix_append found _).isInfix
  · exact absurd h (by simp)

theorem of_nextLexeme_eq_text {c : Char} {line body : List Char} {interpolated : Bool}
    (h : (nextLexeme c line).1 = .text body interpolated) :
    isQuotable body = true ∧ body <:+: c :: line := by
  unfold nextLexeme at h
  split at h
  · rename_i mark hmark
    have hspelling := mark?_spelling hmark
    obtain rfl : mark = .text body interpolated := h
    cases interpolated <;> simp [Lexeme.spelling] at hspelling
  split at h
  · obtain ⟨hquote, hin⟩ := of_quotedLexeme_eq_text h
    exact ⟨hquote, hin.trans (List.suffix_cons c line).isInfix⟩
  split at h
  · obtain ⟨hquote, hin⟩ := of_quotedLexeme_eq_text h
    exact ⟨hquote, (hin.trans (List.drop_suffix 1 line).isInfix).trans
      (List.suffix_cons c line).isInfix⟩
  split at h <;> simp at h

theorem nextLexeme_suffix (c : Char) (line : List Char) :
    (nextLexeme c line).2 <:+ c :: line :=
  ⟨_, nextLexeme_spelling c line⟩

/-- A text the lexer finds is closed by a quote and stands on the line. -/
theorem of_text_mem_lexemes {line body : List Char} {interpolated : Bool}
    (h : Lexeme.text body interpolated ∈ lexemes line) :
    isQuotable body = true ∧ body <:+: line := by
  induction line using lexemes_induction with
  | nil => simp at h
  | blank c line hblank ih =>
      rw [lexemes_blank hblank] at h
      obtain ⟨hquote, hin⟩ := ih h
      exact ⟨hquote, hin.trans (List.suffix_cons c line).isInfix⟩
  | next c line hblank ih =>
      rw [lexemes_next hblank, List.mem_cons] at h
      rcases h with hhead | hrest
      · exact of_nextLexeme_eq_text hhead.symm
      · obtain ⟨hquote, hin⟩ := ih hrest
        exact ⟨hquote, hin.trans (nextLexeme_suffix c line).isInfix⟩

end TicketPress
