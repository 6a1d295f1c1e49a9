import Mathlib.Data.List.Forall2
import TicketPress.Proofs.Script.Expression
import TicketPress.Script.Number

/-!
# Spellings of one line

Two lines can be spelled apart and mean the same: blanks stand elsewhere, a
number is written in another base, a name that is called is in other letters.
Which word may stand for which depends on the lexemes that follow, since these
decide whether the word is part of a name that is called. `Respelled` relates
lexemes in this way and `Expr.MeansSame` expressions, and the readers take the
one to the other: they read both lines or neither, and what they read means the
same (`readExpr_alike`).
-/

namespace TicketPress

/-! ## Words -/

/-- Two words that stand for one number. -/
def SameNumber (a b : List Char) : Prop := ∃ n, number? a = some n ∧ number? b = some n

/-- Two words that mean the same. In a name that is called capital and small
letters count as one. -/
def SameWord (called : Bool) (a b : List Char) : Prop :=
  a = b ∨ SameNumber a b ∨ (called = true ∧ Text.sameLetters a b = true)

theorem SameWord.refl (called : Bool) (a : List Char) : SameWord called a a := Or.inl rfl

theorem SameWord.symm {called : Bool} {a b : List Char} (h : SameWord called a b) :
    SameWord called b a := by
  rcases h with rfl | ⟨n, ha, hb⟩ | ⟨hcalled, hletters⟩
  · exact .refl called a
  · exact Or.inr (Or.inl ⟨n, hb, ha⟩)
  · refine Or.inr (Or.inr ⟨hcalled, ?_⟩)
    simpa [Text.sameLetters] using (beq_iff_eq.mp hletters).symm

/-! ## Lexemes -/

/-- Whether a name that goes on here is called. -/
def leadsToCall : List Lexeme → Bool
  | .openParen :: _ => true
  | .dot :: .word _ :: rest => leadsToCall rest
  | _ => false

/-- Two lexemes that mean the same before the rest of a line. Stray lexemes mean
nothing. -/
inductive Lexeme.MeansSame (rest : List Lexeme) : Lexeme → Lexeme → Prop
  | same (lexeme : Lexeme) : MeansSame rest lexeme lexeme
  | word {a b : List Char} (h : SameWord (leadsToCall rest) a b) :
    MeansSame rest (.word a) (.word b)
  | stray (a b : List Char) : MeansSame rest (.stray a) (.stray b)

/-- Two lists of lexemes of one length that mean the same, lexeme by lexeme. -/
inductive Respelled : List Lexeme → List Lexeme → Prop
  | nil : Respelled [] []
  | cons {first first' : Lexeme} {rest rest' : List Lexeme}
    (hfirst : first.MeansSame rest first') (hrest : Respelled rest rest') :
    Respelled (first :: rest) (first' :: rest')

theorem Lexeme.MeansSame.exists_word {rest : List Lexeme} {a : List Char} {lexeme : Lexeme}
    (h : MeansSame rest (.word a) lexeme) :
    ∃ b, lexeme = .word b ∧ SameWord (leadsToCall rest) a b := by
  cases h with
  | same => exact ⟨a, rfl, .refl _ a⟩
  | word h => exact ⟨_, rfl, h⟩

namespace Respelled

variable {list list' : List Lexeme}

theorem refl (list : List Lexeme) : Respelled list list := by
  induction list with
  | nil => exact .nil
  | cons first rest ih => exact .cons (.same first) ih

theorem length_eq (h : Respelled list list') : list.length = list'.length := by
  induction h with
  | nil => rfl
  | cons _ _ ih => rw [List.length_cons, List.length_cons, ih]

/-- Parentheses and dots are spelled in one way, so both lists call the name or
neither does. -/
theorem leadsToCall_eq (h : Respelled list list') : leadsToCall list = leadsToCall list' := by
  fun_induction leadsToCall list generalizing list' with
  | case1 rest =>
      cases h with
      | cons hfirst _ =>
          cases hfirst
          rfl
  | case2 segment rest ih =>
      cases h with
      | cons hdot hrest =>
          cases hdot
          cases hrest with
          | cons hword hrest =>
              obtain ⟨segment', rfl, -⟩ := hword.exists_word
              rw [leadsToCall, ih hrest]
  | case3 list hopen hdot =>
      symm
      cases h with
      | nil => rfl
      | @cons first _ rest _ hfirst hrest =>
          cases hfirst with
          | same =>
              cases first with
              | openParen => exact absurd rfl (hopen rest)
              | dot =>
                  cases hrest with
                  | nil => rfl
                  | @cons next _ rest _ hnext _ =>
                      cases hnext with
                      | same =>
                          cases next with
                          | word segment => exact absurd rfl (hdot segment rest)
                          | _ => rfl
                      | @word segment => exact absurd rfl (hdot segment rest)
                      | stray => rfl
              | _ => rfl
          | word => rfl
          | stray => rfl

/-- The lexemes of the first list tell which words are called, and those of the
second one tell the same, so it does not matter which line comes first. -/
theorem symm (h : Respelled list list') : Respelled list' list := by
  induction h with
  | nil => exact .nil
  | cons hfirst hrest ih =>
      refine .cons ?_ ih
      cases hfirst with
      | same => exact .same _
      | word hword => exact .word (hrest.leadsToCall_eq ▸ hword.symm)
      | stray a b => exact .stray b a

end Respelled

/-! ## Expressions -/

/-- Two expressions that mean the same. -/
inductive Expr.MeansSame : Expr → Expr → Prop
  | word {a b : List Char} (h : SameWord false a b) : MeansSame (.word a) (.word b)
  | path {segments segments' : List (List Char)}
    (h : List.Forall₂ (SameWord false) segments segments') :
    MeansSame (.path segments) (.path segments')
  | text (body : List Char) (interpolated : Bool) :
    MeansSame (.text body interpolated) (.text body interpolated)
  | call {callee callee' : List (List Char)} {arguments arguments' : List Expr}
    (hcallee : List.Forall₂ (SameWord true) callee callee')
    (harguments : List.Forall₂ MeansSame arguments arguments') :
    MeansSame (.call callee arguments) (.call callee' arguments')

/-- Two calls that mean the same. -/
structure Call.MeansSame (call call' : Call) : Prop where
  callee : List.Forall₂ (SameWord true) call.callee call'.callee
  arguments : List.Forall₂ Expr.MeansSame call.arguments call'.arguments

theorem Expr.MeansSame.ofSegments {first first' : List Char} {segments segments' : List (List Char)}
    (hfirst : SameWord false first first')
    (hsegments : List.Forall₂ (SameWord false) segments segments') :
    MeansSame (.ofSegments first segments) (.ofSegments first' segments') := by
  cases hsegments with
  | nil => exact .word hfirst
  | cons hsegment hsegments => exact .path (.cons hfirst (.cons hsegment hsegments))

theorem Expr.MeansSame.call? {e e' : Expr} (h : e.MeansSame e') :
    Option.Rel Call.MeansSame e.call? e'.call? := by
  cases h with
  | call hcallee harguments => exact .some ⟨hcallee, harguments⟩
  | _ => exact .none

/-! ## Reading -/

theorem rel_bind {α β γ δ : Type} {R : α → β → Prop} {S : γ → δ → Prop} {x : Option α}
    {y : Option β} {f : α → Option γ} {g : β → Option δ} (h : Option.Rel R x y)
    (hfg : ∀ a b, x = some a → R a b → Option.Rel S (f a) (g b)) :
    Option.Rel S (x.bind f) (y.bind g) := by
  cases h with
  | none => exact .none
  | some hab => exact hfg _ _ rfl hab

/-- Two readings that both fail, or give what is related and leave what means
the same. -/
def ReadAlike {α : Type} (R : α → α → Prop) :
    Option (α × List Lexeme) → Option (α × List Lexeme) → Prop :=
  Option.Rel fun read read' => R read.1 read'.1 ∧ Respelled read.2 read'.2

/-- Segments are read up to the lexeme that decides whether their name is
called. -/
theorem leadsToCall_of_readSegments {list rest : List Lexeme} {segments : List (List Char)}
    (h : readSegments list = some (segments, rest)) :
    leadsToCall list = (rest.head? == some .openParen) := by
  fun_induction readSegments list generalizing segments with
  | case1 segment list ih =>
      simp only [Option.bind_eq_bind, Option.pure_def, Option.bind_eq_some_iff, Prod.exists] at h
      obtain ⟨found, more, hfound, hpair⟩ := h
      obtain ⟨-, rfl⟩ : segment :: found = segments ∧ more = rest := by simpa using hpair
      exact ih hfound
  | case2 => simp at h
  | case3 list _ hdot =>
      obtain ⟨-, rfl⟩ : [] = segments ∧ list = rest := by simpa using h
      cases list with
      | nil => rfl
      | cons first rest =>
          cases first with
          | dot => exact absurd rfl (hdot rest)
          | _ => rfl

theorem readSegments_alike {list list' : List Lexeme} (h : Respelled list list') :
    ReadAlike (List.Forall₂ (SameWord (leadsToCall list))) (readSegments list)
      (readSegments list') := by
  fun_induction readSegments list generalizing list' with
  | case1 segment rest ih =>
      cases h with
      | cons hdot hrest =>
          cases hdot
          cases hrest with
          | cons hword hrest =>
              obtain ⟨segment', rfl, hsegment⟩ := hword.exists_word
              exact rel_bind (ih hrest) fun found found' _ hfound =>
                .some ⟨.cons hsegment hfound.1, hfound.2⟩
  | case2 rest hnot =>
      cases h with
      | cons hdot hrest =>
          cases hdot
          cases hrest with
          | nil => exact .none
          | @cons next _ rest _ hnext _ =>
              cases hnext with
              | same =>
                  cases next with
                  | word segment => exact absurd rfl (hnot segment rest)
                  | _ => exact .none
              | @word segment => exact absurd rfl (hnot segment rest)
              | stray => exact .none
  | case3 list _ hdot =>
      cases h with
      | nil => exact .some ⟨.nil, .nil⟩
      | @cons first _ rest _ hfirst hrest =>
          cases hfirst with
          | same =>
              cases first with
              | dot => exact absurd rfl (hdot rest)
              | _ => exact .some ⟨.nil, .cons (.same _) hrest⟩
          | word hword => exact .some ⟨.nil, .cons (.word hword) hrest⟩
          | stray a b => exact .some ⟨.nil, .cons (.stray a b) hrest⟩

section Arguments

variable {read : List Lexeme → Option (Expr × List Lexeme)}
  (hread : ∀ {list list'}, Respelled list list' →
    ReadAlike Expr.MeansSame (read list) (read list'))

include hread

theorem readList_alike {bound bound' : Nat} (hbound : bound = bound') {list list' : List Lexeme}
    (h : Respelled list list') :
    ReadAlike (List.Forall₂ Expr.MeansSame) (readList read bound list)
      (readList read bound' list') := by
  subst hbound
  induction bound generalizing list list' with
  | zero => exact .none
  | succ bound ih =>
      refine rel_bind (hread h) fun found found' _ hfound => ?_
      obtain ⟨first, rest⟩ := found
      obtain ⟨first', rest'⟩ := found'
      obtain ⟨hfirst, hrest⟩ := hfound
      cases hrest with
      | nil => exact .none
      | @cons next _ _ _ hnext hrest =>
          cases hnext with
          | same =>
              cases next with
              | comma =>
                  exact rel_bind (ih hrest) fun others others' _ hothers =>
                    .some ⟨.cons hfirst hothers.1, hothers.2⟩
              | closeParen => exact .some ⟨.cons hfirst .nil, hrest⟩
              | _ => exact .none
          | word => exact .none
          | stray => exact .none

theorem readArguments_alike {list list' : List Lexeme} (h : Respelled list list') :
    ReadAlike (List.Forall₂ Expr.MeansSame) (readArguments read list)
      (readArguments read list') := by
  have hlist := readList_alike hread h.length_eq h
  cases h with
  | nil => exact .none
  | @cons first _ _ _ hfirst hrest =>
      cases hfirst with
      | same =>
          cases first with
          | closeParen => exact .some ⟨.nil, hrest⟩
          | _ => exact hlist
      | word => exact hlist
      | stray => exact hlist

end Arguments

/-- A name is read alike, called or not, if the arguments of a call are. -/
theorem readExpr_word_alike {levels : Nat}
    (hread : ∀ {list list'}, Respelled list list' →
      ReadAlike Expr.MeansSame (readExpr levels list) (readExpr levels list'))
    {first first' : List Char} {rest rest' : List Lexeme}
    (hfirst : SameWord (leadsToCall rest) first first') (hrest : Respelled rest rest') :
    ReadAlike Expr.MeansSame (readExpr (levels + 1) (.word first :: rest))
      (readExpr (levels + 1) (.word first' :: rest')) := by
  refine rel_bind (readSegments_alike hrest) fun found found' hfound hrel => ?_
  obtain ⟨segments, more⟩ := found
  obtain ⟨segments', more'⟩ := found'
  obtain ⟨hsegments, hmore⟩ := hrel
  rw [leadsToCall_of_readSegments hfound] at hfirst hsegments
  -- What follows the name decides how far its words may differ, and whether it is called.
  cases hmore with
  | nil => exact .some ⟨.ofSegments hfirst hsegments, .nil⟩
  | @cons next _ _ _ hnext hmore =>
      cases hnext with
      | same =>
          cases next with
          | openParen =>
              exact rel_bind (readArguments_alike hread hmore) fun _ _ _ harguments =>
                .some ⟨.call (.cons hfirst hsegments) harguments.1, harguments.2⟩
          | _ => exact .some ⟨.ofSegments hfirst hsegments, .cons (.same _) hmore⟩
      | word hword => exact .some ⟨.ofSegments hfirst hsegments, .cons (.word hword) hmore⟩
      | stray a b => exact .some ⟨.ofSegments hfirst hsegments, .cons (.stray a b) hmore⟩

/-- The reader takes lists that mean the same to expressions that mean the same,
or reads neither. -/
theorem readExpr_alike (levels : Nat) {list list' : List Lexeme} (h : Respelled list list') :
    ReadAlike Expr.MeansSame (readExpr levels list) (readExpr levels list') := by
  induction levels generalizing list list' with
  | zero => exact .none
  | succ levels ih =>
      cases h with
      | nil => exact .none
      | @cons first _ _ _ hfirst hrest =>
          cases hfirst with
          | same =>
              cases first with
              | word first => exact readExpr_word_alike ih (.refl _ first) hrest
              | text body interpolated => exact .some ⟨.text body interpolated, hrest⟩
              | _ => exact .none
          | word hword => exact readExpr_word_alike ih hword hrest
          | stray => exact .none

end TicketPress
