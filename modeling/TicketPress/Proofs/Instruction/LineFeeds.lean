import TicketPress.Proofs.Instruction.Literal

/-!
# What writing out line feeds loses

A literal writes a line feed as `\n` and writes a backslash as it is, so the
two characters `\n` of a content and a line feed of it are told apart no more
once they stand in a literal. Nothing else is lost. Both replacements go from
left to right without overlap, and the question is whether one of them can see
a pair that the other one left or made: a backslash of the content before a
line feed, or a second backslash before an `n`. It cannot, because no line feed
turns into an `n` and no pair turns into a backslash.

`unescaped_escaped_eq` says that content comes back from its literal as if it
had been a body from the beginning, and `unescaped_append` where a text may be
cut in two and read in parts.
-/

namespace TicketPress

/-! ## Content read as a body -/

/-- Writing out the line feeds of a text makes no difference to how the text is
read. -/
theorem unescaped_escaped_eq (text : List Char) : unescaped (escaped text) = unescaped text := by
  induction text using Text.pair_induction '\\' 'n' with
  | nil => rfl
  | pair text ih =>
      have hwritten : escaped ('\\' :: 'n' :: text) = '\\' :: 'n' :: escaped text := by
        rw [escaped_cons (by decide), escaped_cons (by decide)]
      rw [hwritten, unescaped_escapedLineFeed, unescaped_escapedLineFeed, ih]
  | char c text hpair ih =>
      rw [unescaped_cons hpair]
      by_cases hc : c = '\n'
      · subst hc
        rw [escaped_lineFeed, unescaped_escapedLineFeed, ih]
      · -- The text after `c` starts with an `n` only if it did so before.
        have hescaped : ¬ (c = '\\' ∧ (escaped text).head? = some 'n') := by
          rw [head?_escaped_eq_n_iff]
          exact hpair
        rw [escaped_cons hc, unescaped_cons hescaped, ih]

theorem Literal.toList_content_ofContent (content : String) :
    (Literal.ofContent content).content.toList = unescaped content.toList := by
  rw [Literal.toList_content, Literal.body_ofContent, unescaped_escaped_eq]

/-- A text is read as itself exactly if no line feed is written in it. -/
theorem unescaped_eq_self_iff (text : List Char) :
    unescaped text = text ↔ ¬ escapedLineFeed <:+: text := by
  rw [← Text.not_occurs_iff]
  constructor
  · intro hself
    rw [← hself]
    exact not_occurs_unescaped text
  · intro hnone
    rw [← unescaped_escaped_eq, unescaped_escaped hnone]

/-! ## Reading in parts -/

/-- A text is read in two parts unless the cut divides a written line feed. -/
theorem unescaped_append {a b : List Char} (h : a.getLast? = some '\\' → b.head? ≠ some 'n') :
    unescaped (a ++ b) = unescaped a ++ unescaped b := by
  induction a using Text.pair_induction '\\' 'n' with
  | nil => rfl
  | pair a ih =>
      have hrest : a.getLast? = some '\\' → b.head? ≠ some 'n' :=
        fun hlast => h (by simp [List.getLast?_cons, hlast])
      rw [List.cons_append, List.cons_append, unescaped_escapedLineFeed,
        unescaped_escapedLineFeed, ih hrest, List.cons_append]
  | char c a hpair ih =>
      have hrest : a.getLast? = some '\\' → b.head? ≠ some 'n' :=
        fun hlast => h (by simp [List.getLast?_cons, hlast])
      have hwhole : ¬ (c = '\\' ∧ (a ++ b).head? = some 'n') := by
        rintro ⟨rfl, hhead⟩
        cases a with
        | nil => exact h rfl hhead
        | cons d a => exact hpair ⟨rfl, hhead⟩
      rw [List.cons_append, unescaped_cons hwhole, unescaped_cons hpair, ih hrest,
        List.cons_append]

/-- A run of backslashes. -/
def backslashes (k : Nat) : List Char := List.replicate k '\\'

theorem unescaped_backslashes (k : Nat) : unescaped (backslashes k) = backslashes k := by
  rw [unescaped_eq_self_iff]
  intro hwritten
  have hmem : 'n' ∈ backslashes k := hwritten.subset (by simp [escapedLineFeed])
  exact absurd (List.eq_of_mem_replicate hmem) (by decide)

/-- Backslashes before a line feed stay, and so does the line feed. -/
theorem unescaped_before_lineFeed (before after : List Char) (k : Nat) :
    unescaped (before ++ (backslashes k ++ '\n' :: after)) =
      unescaped before ++ (backslashes k ++ '\n' :: unescaped after) := by
  have hlineFeed : unescaped ('\n' :: after) = '\n' :: unescaped after :=
    unescaped_cons (by simp)
  have hrun : unescaped (backslashes k ++ '\n' :: after) =
      backslashes k ++ '\n' :: unescaped after := by
    rw [unescaped_append (by simp), unescaped_backslashes, hlineFeed]
  -- What follows the cut starts with a backslash or with the line feed.
  have hhead : (backslashes k ++ '\n' :: after).head? ≠ some 'n' := by
    cases k <;> simp [backslashes, List.replicate_succ]
  rw [unescaped_append fun _ => hhead, hrun]

/-- Of the backslashes before an `n` the last one is read with it, and the
others stay. -/
theorem unescaped_before_n (before after : List Char) (k : Nat) :
    unescaped (before ++ (backslashes (k + 1) ++ 'n' :: after)) =
      unescaped before ++ (backslashes k ++ '\n' :: unescaped after) := by
  have hlast : backslashes (k + 1) ++ 'n' :: after = backslashes k ++ '\\' :: 'n' :: after := by
    simp [backslashes, List.replicate_succ']
  have hrun : unescaped (backslashes (k + 1) ++ 'n' :: after) =
      backslashes k ++ '\n' :: unescaped after := by
    rw [hlast, unescaped_append (by simp), unescaped_backslashes, unescaped_escapedLineFeed]
  have hhead : (backslashes (k + 1) ++ 'n' :: after).head? ≠ some 'n' := by
    simp [backslashes, List.replicate_succ]
  rw [unescaped_append fun _ => hhead, hrun]

/-! ## What is lost -/

/-- Content comes back from its literal exactly if it holds no written line
feed; a body comes back from its content exactly if it holds no line feed; and
no content that a literal gives holds a written line feed. What comes back of
other content is settled at its line feeds, real and written: both come back as
line feeds, every backslash before them stays but the one that writes them, and
what stands before and after comes back by itself. -/
theorem Literal.content_ofContent_eq_iff :
    (∀ content : String,
      (Literal.ofContent content).content = content ↔ ¬ escapedLineFeed <:+: content.toList) ∧
    (∀ literal : Literal,
      (Literal.ofContent literal.content).body = literal.body ↔ '\n' ∉ literal.body) ∧
    (∀ literal : Literal, ¬ escapedLineFeed <:+: literal.content.toList) ∧
    ∀ (before after : String) (k : Nat),
      (Literal.ofContent (before ++ String.ofList (backslashes k) ++ "\n" ++ after)).content =
        (Literal.ofContent before).content ++ String.ofList (backslashes k) ++ "\n" ++
          (Literal.ofContent after).content ∧
      (Literal.ofContent (before ++ String.ofList (backslashes (k + 1)) ++ "n" ++ after)).content =
        (Literal.ofContent before).content ++ String.ofList (backslashes k) ++ "\n" ++
          (Literal.ofContent after).content := by
  refine ⟨fun content => ?_, fun literal => ?_, fun literal => ?_, fun before after k => ?_⟩
  · rw [← String.toList_inj, Literal.toList_content_ofContent, unescaped_eq_self_iff]
  · rw [Literal.body_ofContent, Literal.toList_content]
    constructor
    · intro hback
      rw [← hback]
      exact lineFeed_not_mem_escaped _
    · exact escaped_unescaped
  · rw [Literal.toList_content, ← Text.not_occurs_iff]
    exact not_occurs_unescaped literal.body
  · have hlineFeed := unescaped_before_lineFeed before.toList after.toList k
    have hn := unescaped_before_n before.toList after.toList k
    constructor
    · rw [← String.toList_inj]
      simpa [Literal.toList_content_ofContent] using hlineFeed
    · rw [← String.toList_inj]
      simpa [Literal.toList_content_ofContent] using hn

/-- Of two backslashes before an `n` one stays. -/
example : (Literal.ofContent "C:\\\\new").content = "C:\\\new" := by decide

end TicketPress
