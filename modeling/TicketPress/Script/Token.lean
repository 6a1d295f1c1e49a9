import TicketPress.Text.Blank
import TicketPress.Text.Lines

/-!
# Tokens of a script line

A line is cut into words, texts between quotes and single marks; the ASCII
blanks between them are dropped. Inside a text a backslash takes the next
character with it, so that a quote after a backslash does not end the text.
A text whose closing quote is missing is one stray token up to the end of the
line.

Every token knows the offset at which it starts, in bytes, and its spelling,
so a line is its tokens laid out over blanks.
-/

namespace TicketPress

/-- A token without its place. -/
inductive Lexeme where
  /-- A run of ASCII letters, digits and underscores. -/
  | word (spelling : List Char)
  /-- A text between quotes, given by what stands between them; a dollar sign
  before the opening quote marks it as interpolated. -/
  | text (body : List Char) (interpolated : Bool)
  | openParen
  | closeParen
  | comma
  | dot
  | semicolon
  /-- Any other character, or a text without a closing quote. -/
  | stray (spelling : List Char)
  deriving Repr, DecidableEq

/-- A character of a word. -/
def isWordChar (c : Char) : Bool := c.isAlphanum || c == '_'

/-- The characters of the line a token stands for. -/
def Lexeme.spelling : Lexeme → List Char
  | .word spelling => spelling
  | .text body false => '"' :: (body ++ ['"'])
  | .text body true => '$' :: '"' :: (body ++ ['"'])
  | .openParen => ['(']
  | .closeParen => [')']
  | .comma => [',']
  | .dot => ['.']
  | .semicolon => [';']
  | .stray spelling => spelling

/-- What follows an opening quote: the text up to its closing quote and what
follows the quote, if there is one. -/
def closeQuote : List Char → Option (List Char × List Char)
  | [] => none
  | '"' :: rest => some ([], rest)
  | ['\\'] => none
  | '\\' :: c :: rest => (closeQuote rest).map fun (body, rest) => ('\\' :: c :: body, rest)
  | c :: rest => (closeQuote rest).map fun (body, rest) => (c :: body, rest)

/-- The text and the rest together, and the quote between them, are what was
read. -/
theorem eq_of_closeQuote {line body rest : List Char} (h : closeQuote line = some (body, rest)) :
    line = body ++ '"' :: rest := by
  fun_induction closeQuote line generalizing body with
  | case1 => simp at h
  | case2 => simp_all
  | case3 => simp at h
  | case4 c line ih =>
    simp only [Option.map_eq_some_iff, Prod.exists] at h
    obtain ⟨body', rest', hclose, hpair⟩ := h
    obtain ⟨rfl, rfl⟩ : '\\' :: c :: body' = body ∧ rest' = rest := by simpa using hpair
    simp [ih hclose]
  | case5 c line _ _ _ ih =>
    simp only [Option.map_eq_some_iff, Prod.exists] at h
    obtain ⟨body', rest', hclose, hpair⟩ := h
    obtain ⟨rfl, rfl⟩ : c :: body' = body ∧ rest' = rest := by simpa using hpair
    simp [ih hclose]

/-- The token after an opening quote, which was spelled `opening`. -/
def quotedLexeme (opening : List Char) (interpolated : Bool) (line : List Char) :
    Lexeme × List Char :=
  match closeQuote line with
  | some (body, rest) => (.text body interpolated, rest)
  | none => (.stray (opening ++ line), [])

/-- The mark a character is. -/
def mark? : Char → Option Lexeme
  | '(' => some .openParen
  | ')' => some .closeParen
  | ',' => some .comma
  | '.' => some .dot
  | ';' => some .semicolon
  | _ => none

theorem mark?_spelling {c : Char} {mark : Lexeme} (h : mark? c = some mark) :
    mark.spelling = [c] := by
  unfold mark? at h
  split at h <;> simp only [Option.some.injEq, reduceCtorEq] at h <;> subst h <;> rfl

/-- The token at the start of a line that starts with a character other than a
blank, and the rest of the line. -/
def nextLexeme (c : Char) (line : List Char) : Lexeme × List Char :=
  match mark? c with
  | some mark => (mark, line)
  | none =>
    if c = '"' then quotedLexeme ['"'] false line
    else if c = '$' ∧ line.head? = some '"' then quotedLexeme ['$', '"'] true (line.drop 1)
    else if isWordChar c then (.word (c :: line.takeWhile isWordChar), line.dropWhile isWordChar)
    else (.stray [c], line)

theorem quotedLexeme_spelling {opening line : List Char} {interpolated : Bool}
    (h : ∀ body, (Lexeme.text body interpolated).spelling = opening ++ body ++ ['"']) :
    (quotedLexeme opening interpolated line).1.spelling
      ++ (quotedLexeme opening interpolated line).2 = opening ++ line := by
  unfold quotedLexeme
  split
  · rename_i body rest hclose
    simp [h, eq_of_closeQuote hclose]
  · simp [Lexeme.spelling]

/-- The spelling of the token and the rest together are the line. -/
theorem nextLexeme_spelling (c : Char) (line : List Char) :
    (nextLexeme c line).1.spelling ++ (nextLexeme c line).2 = c :: line := by
  unfold nextLexeme
  split
  · rename_i mark hmark
    simp [mark?_spelling hmark]
  split
  · rename_i hquote
    rw [quotedLexeme_spelling (by simp [Lexeme.spelling])]
    simp [hquote]
  split
  · rename_i hdollar
    rw [quotedLexeme_spelling (by simp [Lexeme.spelling])]
    obtain ⟨rfl, hquote⟩ := hdollar
    cases line with
    | nil => simp at hquote
    | cons d line =>
      obtain rfl : d = '"' := by simpa using hquote
      rfl
  split
  · simp [Lexeme.spelling, List.takeWhile_append_dropWhile]
  · simp [Lexeme.spelling]

/-- A token is not empty. -/
theorem length_nextLexeme_lt (c : Char) (line : List Char) :
    (nextLexeme c line).2.length < line.length + 1 := by
  have hne : (nextLexeme c line).1.spelling ≠ [] := by
    unfold nextLexeme
    split
    · rename_i mark hmark
      simp [mark?_spelling hmark]
    · unfold quotedLexeme
      repeat' split
      all_goals simp [Lexeme.spelling]
  have hsum := congrArg List.length (nextLexeme_spelling c line)
  simp only [List.length_append, List.length_cons] at hsum
  have := List.length_pos_iff.mpr hne
  omega

/-- A token of a line. -/
structure Token where
  lexeme : Lexeme
  /-- The offset of its first character, in bytes. -/
  start : Nat
  deriving Repr, DecidableEq

/-- The offset after the last character of a token, in bytes. -/
def Token.stop (token : Token) : Nat := token.start + Text.byteLength token.lexeme.spelling

/-- The tokens of a line whose first character stands at the offset. -/
def tokensFrom (offset : Nat) : List Char → List Token
  | [] => []
  | c :: line =>
    if Text.isAsciiBlank c then tokensFrom (offset + c.utf8Size) line
    else
      let next := nextLexeme c line
      ⟨next.1, offset⟩ :: tokensFrom (offset + Text.byteLength next.1.spelling) next.2
  termination_by line => line.length
  decreasing_by
    · simp
    · have := length_nextLexeme_lt c line
      simp only [List.length_cons]
      exact this

/-- The tokens of a line. -/
def tokens (line : List Char) : List Token := tokensFrom 0 line

end TicketPress
