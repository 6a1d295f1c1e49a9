import TicketPress.Proofs.Script.Cutting

/-!
# The tokens of a line tile it

The offsets of tokens count bytes, so what the lexer owes is said in bytes as
well: the tokens lie one after another on boundaries between characters, each
one is the slice of the line between its offsets and is cut out as it should
be, and what lies outside all of them is blank. `Tiles` is this account. The
tokens of the lexer tile every line, and no other list of tokens does:
`tokens_tile`.

Both directions go through `LieFrom`, the account of what stands after some
beginning of the line: the lexer builds it up from the end of the line, and a
list that is given with it is taken apart from its first token on.
-/

namespace TicketPress

open Text (bytes byteLength)

/-! ## Slices of a line -/

/-- A token is a slice of the line that can be cut out as this token, and
between the quotes of a text stands its body. -/
structure Token.StandsOn (token : Token) (line : String) : Prop where
  nonempty : token.start < token.stop
  startValid : String.Pos.Raw.IsValid line ⟨token.start⟩
  stopValid : String.Pos.Raw.IsValid line ⟨token.stop⟩
  slice : line.toByteArray.extract token.start token.stop =
    (String.ofList token.lexeme.spelling).toByteArray
  body : ∀ body interpolated, token.lexeme = .text body interpolated →
    line.toByteArray.extract (token.start + byteLength (openingQuote interpolated))
      (token.stop - 1) = (String.ofList body).toByteArray
  cut : ∃ before after, line.toList = before ++ token.lexeme.spelling ++ after ∧
    token.start = byteLength before ∧ token.lexeme.IsCut before after

/-- The offsets of a token say the same as what it is cut out of. -/
theorem Lexeme.IsCut.standsOn {lexeme : Lexeme} {before after : List Char}
    (h : lexeme.IsCut before after) {line : String}
    (hline : line.toList = before ++ lexeme.spelling ++ after) :
    Token.StandsOn ⟨lexeme, byteLength before⟩ line where
  nonempty := Nat.lt_add_of_pos_right (Text.byteLength_pos h.spelling_ne_nil)
  startValid := Text.isValid_byteLength (by rw [hline, List.append_assoc])
  stopValid := by
    have hstop := Text.isValid_byteLength hline
    rwa [Text.byteLength_append] at hstop
  slice := Text.extract_toByteArray hline
  body := by
    rintro body interpolated rfl
    have hparts : line.toList = before ++ openingQuote interpolated ++ body ++ '"' :: after := by
      simp [hline, Lexeme.spelling_text]
    have hbody := Text.extract_toByteArray hparts
    have hquote : '"'.utf8Size = 1 := rfl
    have hstop : Token.stop ⟨.text body interpolated, byteLength before⟩ - 1 =
        byteLength (before ++ openingQuote interpolated) + byteLength body := by
      simp only [Token.stop, Lexeme.spelling_text, Text.byteLength_append, Text.byteLength_cons,
        Text.byteLength_nil, hquote]
      omega
    rwa [hstop, ← Text.byteLength_append]
  cut := ⟨before, after, hline, rfl, h⟩

theorem Token.StandsOn.stop_le {token : Token} {line : String} (h : token.StandsOn line) :
    token.stop ≤ byteLength line.toList := by
  obtain ⟨before, after, hline, hstart, -⟩ := h.cut
  rw [Token.stop, hline, hstart, Text.byteLength_append, Text.byteLength_append]
  omega

/-- A token that starts where `before` ends is the one the lexer finds there. -/
theorem Token.StandsOn.lexeme_eq {token : Token} {line : String} (h : token.StandsOn line)
    {before : List Char} {c : Char} {rest : List Char} (hline : line.toList = before ++ c :: rest)
    (hstart : token.start = byteLength before) :
    Text.isAsciiBlank c = false ∧ token.lexeme = (nextLexeme c rest).1 := by
  obtain ⟨found, after, hfound, hfoundStart, hcut⟩ := h.cut
  rw [hline, List.append_assoc] at hfound
  obtain ⟨rfl, hnext⟩ := Text.append_inj_of_byteLength hfound (hstart.symm.trans hfoundStart)
  exact ⟨hcut.not_blank hnext.symm, by rw [hcut.nextLexeme_eq hnext.symm]⟩

/-! ## Bytes outside of tokens -/

/-- A blank between tokens, as a byte. -/
def isBlankByte (byte : UInt8) : Bool :=
  byte == 0x20 || byte == 0x09 || byte == 0x0A || byte == 0x0C || byte == 0x0D

/-- A byte of the line lies between the offsets of the token. -/
def Token.Covers (token : Token) (offset : Nat) : Prop :=
  token.start ≤ offset ∧ offset < token.stop

theorem utf8Size_of_isAsciiBlank {c : Char} (h : Text.isAsciiBlank c = true) :
    c.utf8Size = 1 := by
  simp only [Text.isAsciiBlank, Bool.or_eq_true, beq_iff_eq] at h
  rcases h with (((rfl | rfl) | rfl) | rfl) | rfl <;> rfl

theorem isBlankByte_of_isAsciiBlank {c : Char} {byte : UInt8}
    (hmem : byte ∈ String.utf8EncodeChar c) (h : Text.isAsciiBlank c = true) :
    isBlankByte byte = true := by
  simp only [Text.isAsciiBlank, Bool.or_eq_true, beq_iff_eq] at h
  rcases h with (((rfl | rfl) | rfl) | rfl) | rfl <;>
    (obtain rfl := List.mem_singleton.mp hmem; decide)

/-- Only a blank has a blank byte in it. -/
theorem isAsciiBlank_of_isBlankByte {c : Char} {byte : UInt8}
    (hmem : byte ∈ String.utf8EncodeChar c) (h : isBlankByte byte = true) :
    Text.isAsciiBlank c = true := by
  have hchar : ∀ d : Char, d.toNat < 128 → byte = UInt8.ofNat d.toNat → c = d := by
    rintro d hd rfl
    have hd' : (UInt8.ofNat d.toNat).toNat = d.toNat := by
      rw [UInt8.toNat_ofNat']
      omega
    have hc := Text.toNat_eq_of_mem_utf8EncodeChar hmem (by rw [hd']; exact hd)
    exact Char.toNat_inj.mp (hc.symm.trans hd')
  simp only [isBlankByte, Bool.or_eq_true, beq_iff_eq] at h
  rcases h with (((h | h) | h) | h) | h
  · exact hchar ' ' (by decide) h ▸ rfl
  · exact hchar '\t' (by decide) h ▸ rfl
  · exact hchar '\n' (by decide) h ▸ rfl
  · exact hchar '\x0c' (by decide) h ▸ rfl
  · exact hchar '\r' (by decide) h ▸ rfl

/-- The byte at which a character of the line starts is the first one of the
character. -/
theorem getElem_byteLength {line : String} {before rest : List Char} {c : Char}
    (hline : line.toList = before ++ c :: rest) :
    ∃ h : byteLength before < line.toByteArray.size,
      line.toByteArray[byteLength before] ∈ String.utf8EncodeChar c := by
  obtain ⟨first, more, hc, -⟩ := Text.exists_utf8EncodeChar c
  have hsize : byteLength before < line.toByteArray.size := by
    have hpos := c.utf8Size_pos
    rw [String.size_toByteArray, ← Text.byteLength_toList, hline, Text.byteLength_append,
      Text.byteLength_cons]
    omega
  have hget := Text.getElem?_bytes hsize
  rw [hline, Text.bytes_append, Text.bytes_cons, List.getElem?_append_right (by simp), hc,
    Text.length_bytes, Nat.sub_self] at hget
  obtain rfl : first = line.toByteArray[byteLength before] := by simpa using hget
  exact ⟨hsize, by simp [hc]⟩

/-! ## What follows a beginning of the line -/

/-- The tokens lie on what stands after the offset, one after another and with
nothing but blanks outside of them. -/
structure LieFrom (offset : Nat) (line : String) (tokens : List Token) : Prop where
  standsOn : ∀ token ∈ tokens, token.StandsOn line
  ordered : tokens.Pairwise fun a b => a.stop ≤ b.start
  le_start : ∀ token ∈ tokens, offset ≤ token.start
  blank : ∀ place (h : place < line.toByteArray.size), offset ≤ place →
    (∀ token ∈ tokens, ¬ token.Covers place) → isBlankByte line.toByteArray[place] = true

section LieFrom

variable {line : String} {tokens : List Token} {before rest : List Char} {c : Char}

theorem LieFrom.nil (line : String) : LieFrom (byteLength line.toList) line [] where
  standsOn := by simp
  ordered := List.Pairwise.nil
  le_start := by simp
  blank := by
    intro place h hle
    rw [String.size_toByteArray, ← Text.byteLength_toList] at h
    exact absurd h (Nat.not_lt.mpr hle)

/-- A blank may stand before the tokens. -/
theorem LieFrom.blank_before (hline : line.toList = before ++ c :: rest)
    (hblank : Text.isAsciiBlank c = true)
    (h : LieFrom (byteLength before + c.utf8Size) line tokens) :
    LieFrom (byteLength before) line tokens where
  standsOn := h.standsOn
  ordered := h.ordered
  le_start token htoken := Nat.le_trans (Nat.le_add_right _ _) (h.le_start token htoken)
  blank := by
    intro place hplace hle hfree
    rcases Nat.eq_or_lt_of_le hle with rfl | hlt
    · exact isBlankByte_of_isAsciiBlank (getElem_byteLength hline).2 hblank
    · rw [utf8Size_of_isAsciiBlank hblank] at h
      exact h.blank place hplace hlt hfree

/-- So may another token. -/
theorem LieFrom.cons {token : Token} (htoken : token.StandsOn line)
    (h : LieFrom token.stop line tokens) : LieFrom token.start line (token :: tokens) where
  standsOn := List.forall_mem_cons.mpr ⟨htoken, h.standsOn⟩
  ordered := List.Pairwise.cons h.le_start h.ordered
  le_start := List.forall_mem_cons.mpr ⟨Nat.le_refl _, fun next hnext =>
    Nat.le_trans (Nat.le_of_lt htoken.nonempty) (h.le_start next hnext)⟩
  blank := by
    intro place hplace hle hfree
    obtain ⟨hfirst, hothers⟩ := List.forall_mem_cons.mp hfree
    exact h.blank place hplace (Nat.not_lt.mp fun hlt => hfirst ⟨hle, hlt⟩) hothers

/-- The lexer lays its tokens on whatever it reads, unless it is started inside
a word. -/
theorem lieFrom_tokensFrom (rest : List Char) : ∀ before, line.toList = before ++ rest →
    (startsWord rest = true → endsWord before = false) →
    LieFrom (byteLength before) line (tokensFrom (byteLength before) rest) := by
  -- On what is still to be read; what was read collects in `before`, and the
  -- second hypothesis carries over since every token separates words.
  induction rest using lexemes_induction with
  | nil =>
      intro before hline _
      rw [tokensFrom, ← List.append_nil before, ← hline]
      exact LieFrom.nil line
  | blank c rest hblank ih =>
      intro before hline _
      have hword : endsWord (before ++ [c]) = false := by
        cases hc : isWordChar c with
        | false => simp [endsWord, hc]
        | true => rw [(of_isWordChar hc).1] at hblank; exact absurd hblank (by simp)
      have hrest := ih (before ++ [c]) (by simpa using hline) fun _ => hword
      rw [tokensFrom, if_pos hblank]
      rw [Text.byteLength_append, Text.byteLength_cons, Text.byteLength_nil, Nat.add_zero] at hrest
      exact hrest.blank_before hline hblank
  | next c rest hblank ih =>
      intro before hline hwhole
      have hcut : (nextLexeme c rest).1.IsCut before (nextLexeme c rest).2 :=
        nextLexeme_isCut hblank hwhole
      rw [← nextLexeme_spelling c rest, ← List.append_assoc] at hline
      have hrest := ih _ hline hcut.endsWord_eq_false
      rw [tokensFrom, if_neg (by simp [hblank])]
      rw [Text.byteLength_append] at hrest
      exact LieFrom.cons (hcut.standsOn hline) hrest

/-! ### Taking tokens off -/

/-- Where no token goes on and no blank stands, the lexer's next token starts. -/
theorem LieFrom.next_mem {offset : Nat} (h : LieFrom offset line tokens)
    (hline : line.toList = before ++ c :: rest) (hblank : Text.isAsciiBlank c = false)
    (hoffset : offset ≤ byteLength before)
    (hfree : ∀ token ∈ tokens, token.start < byteLength before → token.stop ≤ byteLength before) :
    ⟨(nextLexeme c rest).1, byteLength before⟩ ∈ tokens := by
  obtain ⟨hsize, hbyte⟩ := getElem_byteLength hline
  have hcovered : ∃ token ∈ tokens, token.Covers (byteLength before) := by
    refine Classical.byContradiction fun hnone => ?_
    have hnot : ∀ token ∈ tokens, ¬ token.Covers (byteLength before) :=
      fun token hmem hcovers => hnone ⟨token, hmem, hcovers⟩
    rw [isAsciiBlank_of_isBlankByte hbyte (h.blank _ hsize hoffset hnot)] at hblank
    exact absurd hblank (by simp)
  obtain ⟨token, hmem, hle, hlt⟩ := hcovered
  have hstart : token.start = byteLength before := by
    refine Nat.le_antisymm hle (Nat.not_lt.mp fun hbefore => ?_)
    exact absurd hlt (Nat.not_lt.mpr (hfree token hmem hbefore))
  obtain ⟨-, hlexeme⟩ := (h.standsOn token hmem).lexeme_eq hline hstart
  rw [← hlexeme, ← hstart]
  exact hmem

/-- The lexer's next token is the first one. -/
theorem LieFrom.eq_cons (h : LieFrom (byteLength before) line tokens)
    (hline : line.toList = before ++ c :: rest) (hblank : Text.isAsciiBlank c = false) :
    ∃ others, tokens = ⟨(nextLexeme c rest).1, byteLength before⟩ :: others := by
  have hmem := h.next_mem hline hblank (Nat.le_refl _)
    fun token htoken hlt => absurd hlt (Nat.not_lt.mpr (h.le_start token htoken))
  cases tokens with
  | nil => exact absurd hmem (by simp)
  | cons first others =>
      refine ⟨others, ?_⟩
      rcases List.mem_cons.mp hmem with heq | hlater
      · rw [heq]
      · have hle := (List.pairwise_cons.mp h.ordered).1 _ hlater
        have hlt := (h.standsOn first (by simp)).nonempty
        have hge := h.le_start first (by simp)
        exact absurd (Nat.lt_of_lt_of_le hlt hle) (Nat.not_lt.mpr hge)

theorem LieFrom.tail {offset : Nat} {token : Token} (h : LieFrom offset line (token :: tokens)) :
    LieFrom token.stop line tokens where
  standsOn := (List.forall_mem_cons.mp h.standsOn).2
  ordered := (List.pairwise_cons.mp h.ordered).2
  le_start := (List.pairwise_cons.mp h.ordered).1
  blank := by
    intro place hplace hle hfree
    have hstart : offset ≤ token.start := h.le_start token (by simp)
    have hlt := (h.standsOn token (by simp)).nonempty
    refine h.blank place hplace (by omega) (List.forall_mem_cons.mpr ⟨fun hcovers => ?_, hfree⟩)
    exact absurd hcovers.2 (Nat.not_lt.mpr hle)

/-- No token starts at a blank. -/
theorem LieFrom.after_blank (h : LieFrom (byteLength before) line tokens)
    (hline : line.toList = before ++ c :: rest) (hblank : Text.isAsciiBlank c = true) :
    LieFrom (byteLength before + c.utf8Size) line tokens where
  standsOn := h.standsOn
  ordered := h.ordered
  le_start := by
    intro token htoken
    rw [utf8Size_of_isAsciiBlank hblank]
    refine Nat.lt_of_le_of_ne (h.le_start token htoken) fun heq => ?_
    rw [((h.standsOn token htoken).lexeme_eq hline heq.symm).1] at hblank
    exact absurd hblank (by simp)
  blank place hplace hle := h.blank place hplace (by omega)

theorem LieFrom.eq_nil (h : LieFrom (byteLength line.toList) line tokens) : tokens = [] := by
  rw [List.eq_nil_iff_forall_not_mem]
  intro token htoken
  have hlt := (h.standsOn token htoken).nonempty
  have hle := (h.standsOn token htoken).stop_le
  have hge := h.le_start token htoken
  omega

/-- Tokens that lie on what stands after `before` are those of the lexer. -/
theorem LieFrom.eq_tokensFrom (rest : List Char) : ∀ {before : List Char} {tokens : List Token},
    LieFrom (byteLength before) line tokens → line.toList = before ++ rest →
    tokens = tokensFrom (byteLength before) rest := by
  induction rest using lexemes_induction with
  | nil =>
      intro before tokens h hline
      rw [List.append_nil] at hline
      rw [tokensFrom]
      exact LieFrom.eq_nil (hline ▸ h)
  | blank c rest hblank ih =>
      intro before tokens h hline
      have hafter := h.after_blank hline hblank
      have hsize : byteLength (before ++ [c]) = byteLength before + c.utf8Size := by simp
      rw [tokensFrom, if_pos hblank, ← hsize]
      exact ih (hsize ▸ hafter) (by simpa using hline)
  | next c rest hblank ih =>
      intro before tokens h hline
      obtain ⟨others, rfl⟩ := h.eq_cons hline hblank
      have hspelling : line.toList =
          before ++ (nextLexeme c rest).1.spelling ++ (nextLexeme c rest).2 := by
        rw [List.append_assoc, nextLexeme_spelling, hline]
      have hlie : LieFrom (byteLength (before ++ (nextLexeme c rest).1.spelling)) line others := by
        rw [Text.byteLength_append]
        exact h.tail
      have hothers := ih hlie hspelling
      rw [tokensFrom, if_neg (by simp [hblank]), hothers, Text.byteLength_append]

/-- A token that reaches the end of the line is the last one. -/
theorem LieFrom.getLast?_eq {offset : Nat} (h : LieFrom offset line tokens) {token : Token}
    (hmem : token ∈ tokens) (hstop : token.stop = byteLength line.toList) :
    tokens.getLast? = some token := by
  induction tokens generalizing offset with
  | nil => exact absurd hmem (by simp)
  | cons first others ih =>
      rcases List.mem_cons.mp hmem with rfl | hlater
      · obtain rfl := LieFrom.eq_nil (hstop ▸ h.tail)
        rfl
      · rw [List.getLast?_cons, ih h.tail hlater]
        rfl

/-- An opening quote without a closing quote makes the last token, and this
token reaches the end of the line. -/
theorem LieFrom.unclosed (h : LieFrom 0 line tokens) {front : List Char} {interpolated : Bool}
    (hline : line.toList = front ++ openingQuote interpolated ++ rest)
    (hopen : closingQuote? (bytes rest) = none)
    (hfree : ∀ token ∈ tokens, token.start < byteLength front → token.stop ≤ byteLength front) :
    ∃ token, tokens.getLast? = some token ∧
      token.lexeme = .stray (openingQuote interpolated ++ rest) ∧
      token.start = byteLength front ∧ token.stop = line.utf8ByteSize := by
  obtain ⟨c, more, hopening, hblank⟩ : ∃ c more, openingQuote interpolated ++ rest = c :: more ∧
      Text.isAsciiBlank c = false := by
    cases interpolated with
    | false => exact ⟨'"', rest, rfl, by decide⟩
    | true => exact ⟨'$', '"' :: rest, rfl, by decide⟩
  rw [List.append_assoc, hopening] at hline
  have hmem := h.next_mem hline hblank (Nat.zero_le _) hfree
  rw [nextLexeme_unclosed hopening.symm hopen] at hmem
  have hstop : Token.stop ⟨.stray (c :: more), byteLength front⟩ = byteLength line.toList := by
    rw [hline, Text.byteLength_append]
    rfl
  refine ⟨_, h.getLast?_eq hmem hstop, hopening ▸ rfl, rfl, ?_⟩
  rw [hstop, Text.byteLength_eq, String.ofList_toList]

end LieFrom

/-! ## Tilings -/

/-- The tokens lie on the line one after another, only blanks lie outside of
them, and a quote without a closing quote is opened by the last one, which takes
the rest of the line. -/
structure Tiles (line : String) (tokens : List Token) : Prop where
  standsOn : ∀ token ∈ tokens, token.StandsOn line
  ordered : tokens.Pairwise fun a b => a.stop ≤ b.start
  blank : ∀ offset (h : offset < line.toByteArray.size),
    (∀ token ∈ tokens, ¬ token.Covers offset) → isBlankByte line.toByteArray[offset] = true
  unclosed : ∀ front interpolated rest, line.toList = front ++ openingQuote interpolated ++ rest →
    closingQuote? (bytes rest) = none →
    (∀ token ∈ tokens, token.start < byteLength front → token.stop ≤ byteLength front) →
    ∃ token, tokens.getLast? = some token ∧
      token.lexeme = .stray (openingQuote interpolated ++ rest) ∧
      token.start = byteLength front ∧ token.stop = line.utf8ByteSize

theorem tiles_tokens (line : String) : Tiles line (tokens line.toList) := by
  have h : LieFrom 0 line (tokens line.toList) :=
    lieFrom_tokensFrom line.toList [] rfl fun _ => rfl
  exact ⟨h.standsOn, h.ordered, fun offset hsize => h.blank offset hsize (Nat.zero_le _),
    fun _ _ _ => h.unclosed⟩

theorem Tiles.eq_tokens {line : String} {found : List Token} (h : Tiles line found) :
    found = tokens line.toList := by
  have hlie : LieFrom (byteLength []) line found :=
    ⟨h.standsOn, h.ordered, fun _ _ => Nat.zero_le _, fun offset hsize _ => h.blank offset hsize⟩
  exact hlie.eq_tokensFrom line.toList rfl

/-- The tokens of a line tile it, and no other tokens do. -/
theorem tokens_tile (line : String) :
    Tiles line (tokens line.toList) ∧ ∀ found, Tiles line found → found = tokens line.toList :=
  ⟨tiles_tokens line, fun _ h => h.eq_tokens⟩

/-- A text of three bytes, and a text that is never closed. -/
example : tokens "f(\"數\") $\"a\\\"".toList =
    [⟨.word ['f'], 0⟩, ⟨.openParen, 1⟩, ⟨.text ['數'] false, 2⟩, ⟨.closeParen, 7⟩,
      ⟨.stray "$\"a\\\"".toList, 9⟩] := by decide +kernel

end TicketPress
