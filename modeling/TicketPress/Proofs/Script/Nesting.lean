import TicketPress.Proofs.Script.Recognition

/-!
# Parentheses of a call

In the lexemes of an expression every parenthesis that is closed was opened
before, and none is left open. So the arguments of a call go up to the one
parenthesis that closes more than they opened, and where none does there is no
call: `findCall_eq_none_of_open`. This is what a reader knows of a line that
breaks off inside a call.
-/

namespace TicketPress

/-- How many parentheses are left open. -/
def openParens (list : List Lexeme) : Int :=
  list.count .openParen - list.count .closeParen

/-- Lexemes that close what they open and nothing else. -/
structure Nested (list : List Lexeme) : Prop where
  bounded : ∀ front, front <+: list → 0 ≤ openParens front
  closed : openParens list = 0

@[simp] theorem openParens_append (a b : List Lexeme) :
    openParens (a ++ b) = openParens a + openParens b := by
  simp only [openParens, List.count_append]
  omega

theorem openParens_cons (lexeme : Lexeme) (list : List Lexeme) :
    openParens (lexeme :: list) = openParens [lexeme] + openParens list :=
  openParens_append [lexeme] list

theorem openParens_of_forall {list : List Lexeme}
    (h : ∀ lexeme ∈ list, lexeme ≠ .openParen ∧ lexeme ≠ .closeParen) : openParens list = 0 := by
  have hopen : list.count .openParen = 0 :=
    List.count_eq_zero.mpr fun hmem => (h _ hmem).1 rfl
  have hclose : list.count .closeParen = 0 :=
    List.count_eq_zero.mpr fun hmem => (h _ hmem).2 rfl
  rw [openParens, hopen, hclose]
  rfl

theorem nested_of_forall {list : List Lexeme}
    (h : ∀ lexeme ∈ list, lexeme ≠ .openParen ∧ lexeme ≠ .closeParen) : Nested list where
  bounded _ hfront :=
    Int.le_of_eq (openParens_of_forall fun lexeme hmem => h lexeme (hfront.subset hmem)).symm
  closed := openParens_of_forall h

theorem Nested.append {a b : List Lexeme} (ha : Nested a) (hb : Nested b) : Nested (a ++ b) where
  bounded front hfront := by
    rcases Text.prefix_append_cases hfront with ⟨more, hmore, rfl⟩ | ⟨hstart, -⟩
    · rw [openParens_append, ha.closed, Int.zero_add]
      exact hb.bounded more hmore
    · exact ha.bounded front hstart
  closed := by rw [openParens_append, ha.closed, hb.closed, Int.zero_add]

theorem Nested.enclosed {list : List Lexeme} (h : Nested list) :
    Nested (.openParen :: (list ++ [.closeParen])) where
  bounded front hfront := by
    rcases List.prefix_cons_iff.mp hfront with rfl | ⟨inner, rfl, hinner⟩
    · exact Int.le_refl 0
    · rw [openParens_cons]
      rcases List.prefix_concat_iff.mp hinner with rfl | hinner
      · rw [openParens_append, h.closed]
        decide
      · have hbounded := h.bounded inner hinner
        have hone : openParens [.openParen] = 1 := rfl
        omega
  closed := by
    rw [openParens_cons, openParens_append, h.closed]
    rfl

/-! ## Expressions -/

theorem nested_writtenPath (segments : List (List Char)) : Nested (writtenPath segments) := by
  apply nested_of_forall
  intro lexeme hmem
  cases segments with
  | nil => simp [writtenPath] at hmem
  | cons first segments =>
      simp only [writtenPath, List.mem_cons, List.mem_flatMap, List.not_mem_nil, or_false] at hmem
      rcases hmem with rfl | ⟨segment, -, rfl | rfl⟩ <;> simp

mutual

theorem Expr.nested_written : (e : Expr) → Nested e.written
  | .word spelling => nested_of_forall (by simp [Expr.written])
  | .path segments => nested_writtenPath segments
  | .text body interpolated => nested_of_forall (by simp [Expr.written])
  | .call callee arguments => by
      rw [Expr.written]
      exact (nested_writtenPath callee).append (nested_writtenArguments arguments).enclosed

theorem nested_writtenArguments : (arguments : List Expr) → Nested (writtenArguments arguments)
  | [] => nested_of_forall (by simp [writtenArguments])
  | first :: others => by
      rw [writtenArguments]
      exact first.nested_written.append (nested_writtenOthers others)

theorem nested_writtenOthers : (others : List Expr) → Nested (writtenOthers others)
  | [] => nested_of_forall (by simp [writtenOthers])
  | next :: others => by
      have hcomma : Nested [.comma] := nested_of_forall (by simp)
      rw [writtenOthers]
      exact hcomma.append (next.nested_written.append (nested_writtenOthers others))

end

/-! ## Calls -/

/-- Without a parenthesis that closes more than was opened, a call does not
end. -/
theorem readArguments_eq_none_of_open {levels : Nat} {list : List Lexeme}
    (h : ∀ front, front <+: list → 0 ≤ openParens front) :
    readArguments (readExpr levels) list = none := by
  cases hread : readArguments (readExpr levels) list with
  | none => rfl
  | some found =>
      obtain ⟨arguments, rest⟩ := found
      obtain ⟨-, rfl⟩ := written_of_readArguments written_of_readExpr hread
      have hend := h (writtenArguments arguments ++ [.closeParen]) ⟨rest, by simp⟩
      rw [openParens_append, (nested_writtenArguments arguments).closed] at hend
      exact absurd hend (by decide)

theorem findCall_eq_none_of_open {name line : List Char} {rest : List Lexeme}
    (hline : lexemes line = .word name :: .openParen :: rest)
    (h : ∀ front, front <+: rest → 0 ≤ openParens front) : findCall name line = none := by
  rw [findCall_of_lexemes hline, readArguments_eq_none_of_open h]
  rfl

end TicketPress
