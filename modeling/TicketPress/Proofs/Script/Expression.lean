import TicketPress.Script.Call

/-!
# Expressions as lexemes

Every expression is written as one list of lexemes, and reading is the inverse
of writing. What bounds it is the shape of the expression: a reader of so many
levels takes the expressions that `Fits` describes and no others. The two
directions are `readExpr_written` and `written_of_readExpr`; the first leaves
what follows the expression alone, so it composes.
-/

namespace TicketPress

/-! ## Writing -/

/-- The lexemes of a dotted name. -/
def writtenPath : List (List Char) → List Lexeme
  | [] => []
  | first :: segments => .word first :: segments.flatMap fun segment => [.dot, .word segment]

mutual

/-- The lexemes of an expression. -/
def Expr.written : Expr → List Lexeme
  | .word spelling => [.word spelling]
  | .path segments => writtenPath segments
  | .text body interpolated => [.text body interpolated]
  | .call callee arguments =>
    writtenPath callee ++ .openParen :: (writtenArguments arguments ++ [.closeParen])

/-- The lexemes of the arguments of a call. -/
def writtenArguments : List Expr → List Lexeme
  | [] => []
  | first :: others => first.written ++ writtenOthers others

/-- The lexemes of the arguments after the first one. -/
def writtenOthers : List Expr → List Lexeme
  | [] => []
  | next :: others => .comma :: (next.written ++ writtenOthers others)

end

/-- An expression of at most so many levels, as the grammar has it: a dotted
name has two segments or more, and a call has a name. -/
inductive Expr.Fits : (levels : Nat) → Expr → Prop
  | word (levels : Nat) (spelling : List Char) : Fits (levels + 1) (.word spelling)
  | path (levels : Nat) {segments : List (List Char)} (h : 2 ≤ segments.length) :
    Fits (levels + 1) (.path segments)
  | text (levels : Nat) (body : List Char) (interpolated : Bool) :
    Fits (levels + 1) (.text body interpolated)
  | call {levels : Nat} {callee : List (List Char)} {arguments : List Expr}
    (hcallee : callee ≠ []) (harguments : ∀ argument ∈ arguments, Fits levels argument) :
    Fits (levels + 1) (.call callee arguments)

/-- What may follow an expression: it goes on neither a dotted name nor the
name of a call. -/
def EndsExpr (rest : List Lexeme) : Prop :=
  rest.head? ≠ some .dot ∧ rest.head? ≠ some .openParen

theorem length_le_length_writtenOthers (others : List Expr) :
    others.length ≤ (writtenOthers others).length := by
  induction others with
  | nil => simp [writtenOthers]
  | cons next others ih =>
      simp only [writtenOthers, List.length_cons, List.length_append]
      omega

/-- After an argument stands a comma or the closing parenthesis. -/
theorem endsExpr_writtenOthers (others : List Expr) (rest : List Lexeme) :
    EndsExpr (writtenOthers others ++ .closeParen :: rest) := by
  cases others with
  | nil => exact ⟨by simp [writtenOthers], by simp [writtenOthers]⟩
  | cons next others => exact ⟨by simp [writtenOthers], by simp [writtenOthers]⟩

/-- An expression of the grammar starts with a word or a text. -/
theorem Expr.Fits.exists_written_eq_cons {levels : Nat} {e : Expr} (h : e.Fits levels) :
    ∃ lexeme tail, e.written = lexeme :: tail ∧ lexeme ≠ .closeParen := by
  cases h with
  | word levels spelling => exact ⟨.word spelling, [], by rw [Expr.written], by simp⟩
  | text levels body interpolated =>
      exact ⟨.text body interpolated, [], by rw [Expr.written], by simp⟩
  | @path levels segments hlength =>
      cases segments with
      | nil => exact absurd hlength (by simp)
      | cons first segments =>
          exact ⟨.word first, _, by rw [Expr.written, writtenPath], by simp⟩
  | @call levels callee arguments hcallee harguments =>
      cases callee with
      | nil => exact absurd rfl hcallee
      | cons first segments =>
          exact ⟨.word first, _, by rw [Expr.written, writtenPath, List.cons_append], by simp⟩

/-! ## Lexemes of arguments -/

theorem mem_writtenOthers_iff {others : List Expr} {lexeme : Lexeme} :
    lexeme ∈ writtenOthers others ↔
      (others ≠ [] ∧ lexeme = .comma) ∨ ∃ argument ∈ others, lexeme ∈ argument.written := by
  induction others with
  | nil => simp [writtenOthers]
  | cons next others ih =>
      simp only [writtenOthers, List.mem_cons, List.mem_append, ih]
      constructor
      · rintro (hcomma | hnext | ⟨-, hcomma⟩ | ⟨argument, hargument, hmem⟩)
        · exact Or.inl ⟨by simp, hcomma⟩
        · exact Or.inr ⟨next, by simp, hnext⟩
        · exact Or.inl ⟨by simp, hcomma⟩
        · exact Or.inr ⟨argument, by simp [hargument], hmem⟩
      · rintro (⟨-, hcomma⟩ | ⟨argument, rfl | hargument, hmem⟩)
        · exact Or.inl hcomma
        · exact Or.inr (Or.inl hmem)
        · exact Or.inr (Or.inr (Or.inr ⟨argument, hargument, hmem⟩))

/-- Between the lexemes of arguments stand commas and nothing else. -/
theorem of_mem_writtenArguments {arguments : List Expr} {lexeme : Lexeme}
    (h : lexeme ∈ writtenArguments arguments) :
    lexeme = .comma ∨ ∃ argument ∈ arguments, lexeme ∈ argument.written := by
  cases arguments with
  | nil => simp [writtenArguments] at h
  | cons first others =>
      rw [writtenArguments, List.mem_append, mem_writtenOthers_iff] at h
      rcases h with hfirst | ⟨-, hcomma⟩ | ⟨argument, hargument, hmem⟩
      · exact Or.inr ⟨first, by simp, hfirst⟩
      · exact Or.inl hcomma
      · exact Or.inr ⟨argument, by simp [hargument], hmem⟩

/-- A lexeme of an argument is one of the call. -/
theorem mem_written_call {callee : List (List Char)} {arguments : List Expr} {argument : Expr}
    (h : argument ∈ arguments) {lexeme : Lexeme} (hmem : lexeme ∈ argument.written) :
    lexeme ∈ (Expr.call callee arguments).written := by
  have harguments : lexeme ∈ writtenArguments arguments := by
    cases arguments with
    | nil => simp at h
    | cons first others =>
        rw [writtenArguments, List.mem_append, mem_writtenOthers_iff]
        rcases List.mem_cons.mp h with rfl | hothers
        · exact Or.inl hmem
        · exact Or.inr (Or.inr ⟨argument, hothers, hmem⟩)
  simp [Expr.written, harguments]

/-! ## Reading what was written -/

theorem readSegments_written (segments : List (List Char)) {rest : List Lexeme}
    (hrest : rest.head? ≠ some .dot) :
    readSegments ((segments.flatMap fun segment => [.dot, .word segment]) ++ rest) =
      some (segments, rest) := by
  induction segments with
  | nil =>
      cases rest with
      | nil => rfl
      | cons lexeme rest =>
          cases lexeme with
          | dot => exact absurd rfl hrest
          | _ => rfl
  | cons segment segments ih =>
      simp only [List.flatMap_cons, List.cons_append, List.nil_append, readSegments, ih]
      rfl

/-- A dotted name before an opening parenthesis is read as the name of a call;
all then depends on the arguments. -/
theorem readExpr_call (levels : Nat) {callee : List (List Char)} (hcallee : callee ≠ [])
    (rest : List Lexeme) :
    readExpr (levels + 1) (writtenPath callee ++ .openParen :: rest) =
      (readArguments (readExpr levels) rest).map fun read => (.call callee read.1, read.2) := by
  cases callee with
  | nil => exact absurd rfl hcallee
  | cons first segments =>
      have hsegments : readSegments ((segments.flatMap fun segment => [.dot, .word segment]) ++
          .openParen :: rest) = some (segments, .openParen :: rest) :=
        readSegments_written segments (by simp)
      rw [writtenPath, List.cons_append, readExpr, hsegments]
      simp only [Option.bind_eq_bind, Option.bind_some, Option.pure_def]
      cases readArguments (readExpr levels) rest with
      | none => rfl
      | some read => rfl

/-- A dotted name that is no call is read as a word or as a path. -/
theorem readExpr_name (levels : Nat) (first : List Char) (segments : List (List Char))
    {rest : List Lexeme} (hrest : EndsExpr rest) :
    readExpr (levels + 1) (writtenPath (first :: segments) ++ rest) =
      some (.ofSegments first segments, rest) := by
  rw [writtenPath, List.cons_append, readExpr, readSegments_written segments hrest.1]
  cases rest with
  | nil => rfl
  | cons lexeme rest =>
      cases lexeme with
      | openParen => exact absurd rfl hrest.2
      | _ => rfl

section Arguments

variable {read : List Lexeme → Option (Expr × List Lexeme)}

/-- An argument that is read is followed by the others or by the end of the
list. -/
theorem readList_of_read (bound : Nat) {lexemes rest : List Lexeme} {first : Expr}
    (h : read lexemes = some (first, .comma :: rest)) :
    readList read (bound + 1) lexemes =
      (readList read bound rest).map fun found => (first :: found.1, found.2) := by
  rw [readList, h]
  simp only [Option.bind_eq_bind, Option.bind_some, Option.pure_def]
  cases readList read bound rest with
  | none => rfl
  | some found => rfl

theorem readList_written {first : Expr} {others : List Expr}
    (h : ∀ argument ∈ first :: others, ∀ rest, EndsExpr rest →
      read (argument.written ++ rest) = some (argument, rest))
    {bound : Nat} (hbound : others.length < bound) (rest : List Lexeme) :
    readList read bound (first.written ++ (writtenOthers others ++ .closeParen :: rest)) =
      some (first :: others, rest) := by
  obtain ⟨bound, rfl⟩ : ∃ n, bound = n + 1 := ⟨bound - 1, by omega⟩
  induction others generalizing first bound with
  | nil =>
      have hfirst := h first (by simp) (.closeParen :: rest) ⟨by simp, by simp⟩
      rw [writtenOthers, List.nil_append, readList, hfirst]
      rfl
  | cons next others ih =>
      have hfirst := h first (by simp) _ (endsExpr_writtenOthers (next :: others) rest)
      obtain ⟨n, rfl⟩ : ∃ n, bound = n + 1 := ⟨bound - 1, by
        simp only [List.length_cons] at hbound
        omega⟩
      rw [writtenOthers, List.cons_append, List.append_assoc] at hfirst ⊢
      rw [readList_of_read _ hfirst,
        ih (fun argument hmem => h argument (by simp [List.mem_cons.mp hmem])) n (by
          simp only [List.length_cons] at hbound
          omega)]
      rfl

/-- Arguments that do not start with the closing parenthesis are a list. -/
theorem readArguments_of_head? {lexemes : List Lexeme} (h : lexemes.head? ≠ some .closeParen) :
    readArguments read lexemes = readList read lexemes.length lexemes := by
  unfold readArguments
  split
  · exact absurd rfl h
  · rfl

theorem readArguments_written {levels : Nat} {arguments : List Expr}
    (hfits : ∀ argument ∈ arguments, argument.Fits levels)
    (h : ∀ argument ∈ arguments, ∀ rest, EndsExpr rest →
      read (argument.written ++ rest) = some (argument, rest)) (rest : List Lexeme) :
    readArguments read (writtenArguments arguments ++ .closeParen :: rest) =
      some (arguments, rest) := by
  cases arguments with
  | nil => rfl
  | cons first others =>
      obtain ⟨lexeme, tail, hwritten, hne⟩ := (hfits first (by simp)).exists_written_eq_cons
      rw [writtenArguments, List.append_assoc,
        readArguments_of_head? (by simpa [hwritten] using hne)]
      apply readList_written h
      have hle := length_le_length_writtenOthers others
      simp only [List.length_append, List.length_cons]
      omega

end Arguments

/-- A call is read back if its arguments are. Its closing parenthesis ends it, so
anything may follow. -/
theorem readExpr_call_written {levels : Nat} {callee : List (List Char)} {arguments : List Expr}
    (hcallee : callee ≠ []) (hfits : ∀ argument ∈ arguments, argument.Fits levels)
    (h : ∀ argument ∈ arguments, ∀ rest, EndsExpr rest →
      readExpr levels (argument.written ++ rest) = some (argument, rest)) (rest : List Lexeme) :
    readExpr (levels + 1) ((Expr.call callee arguments).written ++ rest) =
      some (.call callee arguments, rest) := by
  rw [Expr.written, List.append_assoc, List.cons_append, List.append_assoc,
    readExpr_call levels hcallee]
  simp only [List.cons_append, List.nil_append]
  rw [readArguments_written hfits h rest]
  rfl

/-- An expression of the grammar is read back, whatever follows it. -/
theorem readExpr_written {levels : Nat} {e : Expr} (h : e.Fits levels) {rest : List Lexeme}
    (hrest : EndsExpr rest) : readExpr levels (e.written ++ rest) = some (e, rest) := by
  induction h generalizing rest with
  | word levels spelling =>
      have hname := readExpr_name levels spelling [] hrest
      rw [Expr.written]
      exact hname
  | @path levels segments hlength =>
      match segments, hlength with
      | first :: second :: segments, _ =>
          rw [Expr.written]
          exact readExpr_name levels first (second :: segments) hrest
  | text levels body interpolated =>
      rw [Expr.written]
      rfl
  | @call levels callee arguments hcallee harguments ih =>
      exact readExpr_call_written hcallee harguments
        (fun argument hmem rest hends => ih argument hmem hends) rest

/-- A call of the grammar is read back with anything behind it. -/
theorem Expr.Fits.read_call {levels : Nat} {callee : List (List Char)}
    {arguments : List Expr} (h : (Expr.call callee arguments).Fits levels) (rest : List Lexeme) :
    readExpr levels ((Expr.call callee arguments).written ++ rest) =
      some (.call callee arguments, rest) := by
  cases h with
  | call hcallee harguments =>
      exact readExpr_call_written hcallee harguments
        (fun argument hmem rest hends => readExpr_written (harguments argument hmem) hends) rest

/-! ## What is read was written -/

theorem written_of_readSegments {lexemes rest : List Lexeme} {segments : List (List Char)}
    (h : readSegments lexemes = some (segments, rest)) :
    lexemes = (segments.flatMap fun segment => [.dot, .word segment]) ++ rest := by
  fun_induction readSegments lexemes generalizing segments with
  | case1 segment lexemes ih =>
      cases hread : readSegments lexemes with
      | none => simp [hread] at h
      | some read =>
          obtain ⟨rfl, rfl⟩ : segment :: read.1 = segments ∧ read.2 = rest := by
            simpa [hread] using h
          rw [ih hread]
          rfl
  | case2 => simp at h
  | case3 lexemes =>
      obtain ⟨rfl, rfl⟩ : [] = segments ∧ lexemes = rest := by simpa using h
      rfl

section Arguments

variable {read : List Lexeme → Option (Expr × List Lexeme)} {levels : Nat}

theorem written_of_readList
    (hread : ∀ {lexemes rest : List Lexeme} {e : Expr}, read lexemes = some (e, rest) →
      lexemes = e.written ++ rest ∧ e.Fits levels)
    {bound : Nat} {lexemes rest : List Lexeme} {arguments : List Expr}
    (h : readList read bound lexemes = some (arguments, rest)) :
    (∀ argument ∈ arguments, argument.Fits levels) ∧ ∃ first others,
      arguments = first :: others ∧
      lexemes = first.written ++ (writtenOthers others ++ .closeParen :: rest) := by
  induction bound generalizing lexemes arguments with
  | zero => simp [readList] at h
  | succ bound ih =>
      rw [readList] at h
      cases hfirst : read lexemes with
      | none => simp [hfirst] at h
      | some found =>
          obtain ⟨first, more⟩ := found
          obtain ⟨rfl, hfits⟩ := hread hfirst
          simp only [hfirst, Option.bind_eq_bind, Option.bind_some, Option.pure_def] at h
          split at h
          · rename_i tail
            cases hothers : readList read bound tail with
            | none => simp [hothers] at h
            | some found =>
                obtain ⟨rfl, rfl⟩ : first :: found.1 = arguments ∧ found.2 = rest := by
                  simpa [hothers] using h
                obtain ⟨hall, next, others, hfound, rfl⟩ := ih hothers
                refine ⟨?_, first, found.1, rfl, ?_⟩
                · simpa using ⟨hfits, hall⟩
                · rw [hfound, writtenOthers]
                  simp
          · rename_i tail
            obtain ⟨rfl, rfl⟩ : [first] = arguments ∧ tail = rest := by simpa using h
            refine ⟨by simpa using hfits, first, [], rfl, ?_⟩
            rw [writtenOthers, List.nil_append]
          · simp at h

theorem written_of_readArguments
    (hread : ∀ {lexemes rest : List Lexeme} {e : Expr}, read lexemes = some (e, rest) →
      lexemes = e.written ++ rest ∧ e.Fits levels)
    {lexemes rest : List Lexeme} {arguments : List Expr}
    (h : readArguments read lexemes = some (arguments, rest)) :
    (∀ argument ∈ arguments, argument.Fits levels) ∧
      lexemes = writtenArguments arguments ++ .closeParen :: rest := by
  unfold readArguments at h
  split at h
  · rename_i tail
    obtain ⟨rfl, rfl⟩ : [] = arguments ∧ tail = rest := by simpa using h
    exact ⟨by simp, rfl⟩
  · obtain ⟨hall, first, others, rfl, rfl⟩ := written_of_readList hread h
    refine ⟨hall, ?_⟩
    rw [writtenArguments, List.append_assoc]

end Arguments

/-- What a reader takes off the front is an expression of the grammar, as it is
written. -/
theorem written_of_readExpr {levels : Nat} {lexemes rest : List Lexeme} {e : Expr}
    (h : readExpr levels lexemes = some (e, rest)) :
    lexemes = e.written ++ rest ∧ e.Fits levels := by
  induction levels generalizing lexemes rest e with
  | zero => simp [readExpr] at h
  | succ levels ih =>
      unfold readExpr at h
      split at h
      · exact absurd ‹levels + 1 = 0› (by omega)
      · rename_i n body interpolated tail hlevels
        obtain ⟨rfl, rfl⟩ : Expr.text body interpolated = e ∧ tail = rest := by simpa using h
        exact ⟨by rw [Expr.written]; rfl, .text levels body interpolated⟩
      · rename_i n first tail hlevels
        obtain rfl : levels = n := by omega
        cases hsegments : readSegments tail with
        | none => simp [hsegments] at h
        | some found =>
            obtain ⟨segments, more⟩ := found
            have htail := written_of_readSegments hsegments
            simp only [hsegments, Option.bind_eq_bind, Option.bind_some, Option.pure_def] at h
            split at h
            · rename_i inner
              cases harguments : readArguments (readExpr levels) inner with
              | none => simp [harguments] at h
              | some found =>
                  obtain ⟨arguments, last⟩ := found
                  obtain ⟨rfl, rfl⟩ :
                      Expr.call (first :: segments) arguments = e ∧ last = rest := by
                    simpa [harguments] using h
                  obtain ⟨hall, rfl⟩ := written_of_readArguments ih harguments
                  refine ⟨?_, .call (by simp) hall⟩
                  rw [Expr.written, writtenPath, htail]
                  simp
            · obtain ⟨rfl, rfl⟩ : Expr.ofSegments first segments = e ∧ more = rest := by
                simpa using h
              cases segments with
              | nil => exact ⟨by rw [Expr.ofSegments, Expr.written, htail]; rfl, .word levels first⟩
              | cons segment segments =>
                  refine ⟨?_, .path levels (by simp)⟩
                  rw [Expr.ofSegments, Expr.written, writtenPath, htail]
                  · rfl
                  · simp
      · simp at h

end TicketPress
