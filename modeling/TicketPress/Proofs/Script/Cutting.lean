import TicketPress.Proofs.Script.Lexing
import TicketPress.Proofs.Text.Bytes

/-!
# What a token is cut out of

A line is cut before and after every token, and `Lexeme.IsCut` says which cuts
are right: a word is not cut in two, a text ends at its closing quote, a quote
that is never closed takes the rest of the line. `nextLexeme_isCut` and
`Lexeme.IsCut.nextLexeme_eq` together say that the lexer makes these cuts and no
others.

A closing quote is searched for by bytes: a backslash takes along the byte after
it, even if that byte is only the beginning of a character. This finds the same
quote as going by characters (`closingQuote?_bytes`), because what is left of a
wide character holds neither a quote nor a backslash.
-/

namespace TicketPress

open Text (bytes byteLength)

/-! ## Closing quotes in bytes -/

/-- The byte of a double quote. -/
def quoteByte : UInt8 := 0x22

/-- The byte of a backslash. -/
def backslashByte : UInt8 := 0x5C

/-- How many bytes stand before the first quote, when a backslash is passed over
together with the byte after it. -/
def closingQuote? : List UInt8 → Option Nat
  | [] => none
  | [byte] => if byte = quoteByte then some 0 else none
  | byte :: next :: rest =>
    if byte = quoteByte then some 0
    else if byte = backslashByte then (closingQuote? rest).map (· + 2)
    else (closingQuote? (next :: rest)).map (· + 1)

theorem closingQuote?_quote (rest : List UInt8) :
    closingQuote? (quoteByte :: rest) = some 0 := by
  cases rest <;> simp [closingQuote?]

theorem closingQuote?_backslash (next : UInt8) (rest : List UInt8) :
    closingQuote? (backslashByte :: next :: rest) = (closingQuote? rest).map (· + 2) := by
  rw [closingQuote?, if_neg (by decide), if_pos rfl]

/-- Bytes other than quotes and backslashes are passed over one by one. -/
theorem closingQuote?_append {front : List UInt8}
    (h : ∀ byte ∈ front, byte ≠ quoteByte ∧ byte ≠ backslashByte) (rest : List UInt8) :
    closingQuote? (front ++ rest) = (closingQuote? rest).map (· + front.length) := by
  induction front with
  | nil => simp
  | cons byte front ih =>
      obtain ⟨hquote, hbackslash⟩ := h byte (by simp)
      have hone : ∀ more, closingQuote? (byte :: more) = (closingQuote? more).map (· + 1) := by
        intro more
        cases more <;> simp [closingQuote?, hquote, hbackslash]
      rw [List.cons_append, hone, ih fun b hb => h b (by simp [hb]), Option.map_map]
      congr 1

/-- The bytes of a character that is no quote and no backslash are neither. -/
theorem of_mem_utf8EncodeChar {c : Char} (hquote : c ≠ '"') (hbackslash : c ≠ '\\') :
    ∀ byte ∈ String.utf8EncodeChar c, byte ≠ quoteByte ∧ byte ≠ backslashByte := by
  intro byte hbyte
  constructor
  · rintro rfl
    exact hquote (Char.toNat_inj.mp
      (Text.toNat_eq_of_mem_utf8EncodeChar hbyte (by decide)).symm)
  · rintro rfl
    exact hbackslash (Char.toNat_inj.mp
      (Text.toNat_eq_of_mem_utf8EncodeChar hbyte (by decide)).symm)

/-- The scan over bytes and the one over characters stop at the same quote. -/
theorem closingQuote?_bytes (line : List Char) :
    closingQuote? (bytes line) = (closeQuote line).map fun parts => byteLength parts.1 := by
  fun_induction closeQuote line with
  | case1 => rfl
  | case2 line => exact closingQuote?_quote _
  | case3 => rfl
  | case4 c line ih =>
      -- The backslash takes the first byte along; the others are passed over.
      obtain ⟨first, more, hc, hmore⟩ := Text.exists_utf8EncodeChar c
      have hpass : ∀ byte ∈ more, byte ≠ quoteByte ∧ byte ≠ backslashByte := by
        intro byte hbyte
        have hwide := hmore byte hbyte
        constructor <;> rintro rfl <;> exact absurd hwide (by decide)
      have hsize : c.utf8Size = more.length + 1 := by
        rw [← String.length_utf8EncodeChar, hc, List.length_cons]
      have hbytes : bytes ('\\' :: c :: line) = backslashByte :: first :: (more ++ bytes line) := by
        rw [Text.bytes_cons, Text.bytes_cons, hc]
        rfl
      rw [hbytes, closingQuote?_backslash, closingQuote?_append hpass, ih, Option.map_map,
        Option.map_map, Option.map_map]
      congr 1
      funext parts
      simp only [Function.comp_apply, Text.byteLength_cons, hsize]
      have hone : '\\'.utf8Size = 1 := rfl
      omega
  | case5 c line hquote hend hescape ih =>
      have hpass := of_mem_utf8EncodeChar hquote (ne_backslash hend hescape)
      rw [Text.bytes_cons, closingQuote?_append hpass, ih, Option.map_map, Option.map_map]
      congr 1
      funext parts
      simp only [Function.comp_apply, Text.byteLength_cons, String.length_utf8EncodeChar]
      omega

/-- The backslash takes along one of the three bytes of the character after it. -/
example : closingQuote? (bytes ['\\', '數', '"', 'x']) = some 4 := by decide

/-! ## Cuts -/

/-- What stands before the body of a text. -/
def openingQuote (interpolated : Bool) : List Char := if interpolated then ['$', '"'] else ['"']

theorem Lexeme.spelling_text (body : List Char) (interpolated : Bool) :
    (Lexeme.text body interpolated).spelling = openingQuote interpolated ++ body ++ ['"'] := by
  cases interpolated <;> rfl

/-- Whether a text ends with a character of a word, so that a word after it
would have begun earlier. -/
def endsWord (text : List Char) : Bool := text.getLast?.any isWordChar

/-- A character that is a token by itself, but none of the five marks. -/
structure IsLoneBefore (c : Char) (after : List Char) : Prop where
  notBlank : Text.isAsciiBlank c = false
  notWord : isWordChar c = false
  notMark : c ∉ ['(', ')', ',', '.', ';']
  notOpening : ∀ interpolated, ¬ openingQuote interpolated <+: c :: after

/-- A text whose quote is opened and never closed. -/
def IsUnclosed (spelling : List Char) : Prop :=
  ∃ interpolated rest, spelling = openingQuote interpolated ++ rest ∧
    closingQuote? (bytes rest) = none

/-- Which tokens can be cut out between two parts of a line. -/
def Lexeme.IsCut (before after : List Char) : Lexeme → Prop
  | .word spelling => IsWord spelling ∧ endsWord before = false ∧ startsWord after = false
  | .text body _ => closingQuote? (bytes (body ++ '"' :: after)) = some (byteLength body)
  | .stray spelling =>
    (∃ c, spelling = [c] ∧ IsLoneBefore c after) ∨ (IsUnclosed spelling ∧ after = [])
  | _ => True

theorem quotedLexeme_isCut (before : List Char) (interpolated : Bool) (line : List Char) :
    (quotedLexeme (openingQuote interpolated) interpolated line).1.IsCut before
      (quotedLexeme (openingQuote interpolated) interpolated line).2 := by
  have hbytes := closingQuote?_bytes line
  unfold quotedLexeme
  cases hclose : closeQuote line with
  | none =>
      rw [hclose] at hbytes
      exact Or.inr ⟨⟨interpolated, line, rfl, hbytes⟩, rfl⟩
  | some parts =>
      obtain ⟨body, rest⟩ := parts
      rw [hclose] at hbytes
      show closingQuote? (bytes (body ++ '"' :: rest)) = some (byteLength body)
      rw [← eq_of_closeQuote hclose]
      exact hbytes

/-- A text is opened by no other character than these. -/
theorem not_opened {c : Char} {after : List Char} (hquote : c ≠ '"')
    (hdollar : ¬ (c = '$' ∧ after.head? = some '"')) (interpolated : Bool) :
    ¬ openingQuote interpolated <+: c :: after := by
  rintro ⟨rest, hrest⟩
  cases interpolated with
  | false => exact hquote (List.cons.inj hrest).1.symm
  | true =>
      obtain ⟨rfl, rfl⟩ := List.cons.inj hrest
      exact hdollar ⟨rfl, rfl⟩

theorem startsWord_dropWhile (line : List Char) :
    startsWord (line.dropWhile isWordChar) = false := by
  induction line with
  | nil => rfl
  | cons c line ih =>
      cases hc : isWordChar c with
      | true => rwa [List.dropWhile_cons_of_pos hc]
      | false => simp [startsWord, hc]

/-- The next token is cut out as it should be, unless a word was cut in two
before it. -/
theorem nextLexeme_isCut {before : List Char} {c : Char} {line : List Char}
    (hblank : Text.isAsciiBlank c = false)
    (hwhole : isWordChar c = true → endsWord before = false) :
    (nextLexeme c line).1.IsCut before (nextLexeme c line).2 := by
  unfold nextLexeme
  split
  case h_1 mark hmark =>
    unfold mark? at hmark
    split at hmark <;> simp only [Option.some.injEq, reduceCtorEq] at hmark <;> subst hmark <;>
      trivial
  case h_2 hmark =>
    split
    case isTrue => exact quotedLexeme_isCut before false line
    case isFalse hquote =>
      split
      case isTrue => exact quotedLexeme_isCut before true _
      case isFalse hdollar =>
        split
        case isTrue hword =>
          refine ⟨⟨by simp, ?_⟩, hwhole hword, startsWord_dropWhile line⟩
          intro d hd
          rcases List.mem_cons.mp hd with rfl | hd
          · exact hword
          · exact List.all_eq_true.mp List.all_takeWhile d hd
        case isFalse hword =>
          refine Or.inl ⟨c, rfl, hblank, by simpa using hword, ?_,
            not_opened hquote hdollar⟩
          intro hc
          simp only [List.mem_cons, List.not_mem_nil, or_false] at hc
          rcases hc with rfl | rfl | rfl | rfl | rfl <;> simp [mark?] at hmark

theorem Lexeme.IsCut.spelling_ne_nil {lexeme : Lexeme} {before after : List Char}
    (h : lexeme.IsCut before after) : lexeme.spelling ≠ [] := by
  cases lexeme with
  | word spelling => exact h.1.1
  | text body interpolated => simp [Lexeme.spelling_text]
  | stray spelling =>
      rcases h with ⟨c, rfl, -⟩ | ⟨⟨interpolated, rest, rfl, -⟩, -⟩
      · simp [Lexeme.spelling]
      · cases interpolated <;> simp [Lexeme.spelling, openingQuote]
  | _ => simp [Lexeme.spelling]

/-- No word goes on over the end of a token. -/
theorem Lexeme.IsCut.endsWord_eq_false {lexeme : Lexeme} {before after : List Char}
    (h : lexeme.IsCut before after) (hafter : startsWord after = true) :
    endsWord (before ++ lexeme.spelling) = false := by
  have hlast : ∀ front c, isWordChar c = false → endsWord (before ++ (front ++ [c])) = false := by
    intro front c hc
    simp [endsWord, hc]
  cases lexeme with
  | word spelling =>
      rw [h.2.2] at hafter
      exact absurd hafter (by simp)
  | text body interpolated =>
      rw [Lexeme.spelling_text]
      exact hlast _ _ (by decide)
  | stray spelling =>
      rcases h with ⟨c, rfl, hc⟩ | ⟨-, rfl⟩
      · exact hlast [] c hc.notWord
      · exact absurd hafter (by simp [startsWord])
  | openParen | closeParen | comma | dot | semicolon => exact hlast [] _ (by decide)

/-! ## What is cut out is the next token -/

/-- A body that ends where the scan over bytes stops can stand between quotes. -/
theorem isQuotable_of_closingQuote? {body after : List Char}
    (h : closingQuote? (bytes (body ++ '"' :: after)) = some (byteLength body)) :
    isQuotable body = true := by
  rw [closingQuote?_bytes, Option.map_eq_some_iff] at h
  obtain ⟨⟨found, rest⟩, hclose, hlength⟩ := h
  obtain ⟨rfl, -⟩ := Text.append_inj_of_byteLength (eq_of_closeQuote hclose).symm hlength
  exact isQuotable_of_closeQuote hclose

/-- A quote without a closing quote takes the whole line with it. -/
theorem nextLexeme_unclosed {interpolated : Bool} {rest line : List Char} {c : Char}
    (hline : c :: line = openingQuote interpolated ++ rest)
    (h : closingQuote? (bytes rest) = none) :
    nextLexeme c line = (.stray (c :: line), []) := by
  have hclose : closeQuote rest = none := by
    rw [closingQuote?_bytes, Option.map_eq_none_iff] at h
    exact h
  cases interpolated with
  | false =>
      obtain ⟨rfl, rfl⟩ := List.cons.inj hline
      simp [nextLexeme, mark?, quotedLexeme, hclose]
  | true =>
      obtain ⟨rfl, rfl⟩ := List.cons.inj hline
      simp [nextLexeme, mark?, quotedLexeme, hclose]

theorem nextLexeme_lone {c : Char} {line : List Char} (h : IsLoneBefore c line) :
    nextLexeme c line = (.stray [c], line) := by
  have hquote : c ≠ '"' := by
    rintro rfl
    exact h.notOpening false ⟨line, rfl⟩
  have hdollar : ¬ (c = '$' ∧ line.head? = some '"') := by
    rintro ⟨rfl, hhead⟩
    obtain ⟨rest, rfl⟩ := List.head?_eq_some_iff.mp hhead
    exact h.notOpening true ⟨rest, rfl⟩
  have hmark : mark? c = none := by
    have hnot := h.notMark
    unfold mark?
    split <;> simp_all
  rw [nextLexeme, hmark]
  simp only [hquote, hdollar, h.notWord, if_false, Bool.false_eq_true]

/-- No token starts with a blank. -/
theorem Lexeme.IsCut.not_blank {lexeme : Lexeme} {before after line : List Char} {c : Char}
    (h : lexeme.IsCut before after) (hline : lexeme.spelling ++ after = c :: line) :
    Text.isAsciiBlank c = false := by
  cases lexeme with
  | word spelling =>
      obtain ⟨⟨hne, hall⟩, -⟩ := h
      cases spelling with
      | nil => exact absurd rfl hne
      | cons d spelling =>
          obtain ⟨rfl, -⟩ := List.cons.inj hline
          exact (of_isWordChar (hall d (by simp))).1
  | text body interpolated =>
      cases interpolated <;> (obtain ⟨rfl, -⟩ := List.cons.inj hline; decide)
  | stray spelling =>
      rcases h with ⟨d, rfl, hlone⟩ | ⟨⟨interpolated, rest, rfl, -⟩, -⟩
      · obtain ⟨rfl, -⟩ := List.cons.inj hline
        exact hlone.notBlank
      · cases interpolated <;> (obtain ⟨rfl, -⟩ := List.cons.inj hline; decide)
  | openParen | closeParen | comma | dot | semicolon =>
      obtain ⟨rfl, -⟩ := List.cons.inj hline
      decide

/-- A token that can be cut out at some place is the one the lexer finds there. -/
theorem Lexeme.IsCut.nextLexeme_eq {lexeme : Lexeme} {before after line : List Char} {c : Char}
    (h : lexeme.IsCut before after) (hline : lexeme.spelling ++ after = c :: line) :
    nextLexeme c line = (lexeme, after) := by
  -- A legible lexeme is found where it is spelled; the stray ones are not legible.
  have hlegible : lexeme.Legible → (lexeme.isWord = true → startsWord after = false) →
      nextLexeme c line = (lexeme, after) := by
    intro hlegible hword
    have hnext := lexemes_spelling hlegible hword
    rw [hline, lexemes_next (h.not_blank hline)] at hnext
    have hfirst : (nextLexeme c line).1 = lexeme := (List.cons.inj hnext).1
    have hrest := nextLexeme_spelling c line
    rw [hfirst, ← hline] at hrest
    exact Prod.ext hfirst (List.append_cancel_left hrest)
  cases lexeme with
  | word spelling => exact hlegible h.1 fun _ => h.2.2
  | text body interpolated => exact hlegible (isQuotable_of_closingQuote? h) nofun
  | openParen | closeParen | comma | dot | semicolon => exact hlegible trivial nofun
  | stray spelling =>
      rcases h with ⟨d, rfl, hlone⟩ | ⟨⟨interpolated, rest, rfl, hopen⟩, rfl⟩
      · obtain ⟨rfl, rfl⟩ := List.cons.inj hline
        exact nextLexeme_lone hlone
      · have hwhole : c :: line = openingQuote interpolated ++ rest := by
          rw [← hline, Lexeme.spelling, List.append_nil]
        rw [nextLexeme_unclosed hwhole hopen, hwhole]

end TicketPress
