import TicketPress.Proofs.Script.Respelling
import TicketPress.Proofs.Text.Trimming
import TicketPress.Script.Recognition

/-!
# What a line means does not depend on its spelling

A line is recognised by its call, and the call is read from its lexemes. Two
lines whose lexemes mean the same hold calls that mean the same, or neither
holds one, and calls that mean the same are recognised as one thing, whatever
that is: an instruction, a command without its operand, an argument that is no
number, or nothing that is known. The names that are looked for start with
letters in each segment, so no spelling of a number can stand for a part of
them.
-/

namespace TicketPress

/-! ## Names are no numbers -/

theorem isAlpha_iff {c : Char} : c.isAlpha = true ↔
    (65 ≤ c.toNat ∧ c.toNat ≤ 90) ∨ (97 ≤ c.toNat ∧ c.toNat ≤ 122) := by
  have hclasses : c.isAlpha =
      (decide (c.val ≥ 65 ∧ c.val ≤ 90) || (c.val ≥ 97 && c.val ≤ 122)) := rfl
  rw [hclasses]
  simp [UInt32.le_iff_toNat_le]

theorem toNat_toLower (c : Char) : c.toLower.toNat =
    if 65 ≤ c.toNat ∧ c.toNat ≤ 90 then c.toNat + 32 else c.toNat := by
  unfold Char.toLower
  split
  · rename_i hupper
    have hcode : 65 ≤ c.toNat ∧ c.toNat ≤ 90 := by
      simpa [UInt32.le_iff_toNat_le] using hupper
    rw [if_pos hcode]
    simp only [Char.reduceVal, UInt32.reduceSub, Char.toNat_mk, UInt32.toNat_add, Char.toNat_val,
      UInt32.reduceToNat]
    omega
  · rename_i hupper
    rw [if_neg (by simpa [UInt32.le_iff_toNat_le] using hupper)]

theorem isAlpha_toLower (c : Char) : c.toLower.isAlpha = c.isAlpha := by
  rw [Bool.eq_iff_iff, isAlpha_iff, isAlpha_iff, toNat_toLower]
  split <;> omega

theorem digit?_ten_eq_none {c : Char} (h : c.isAlpha = true) : Decimal.digit? 10 c = none := by
  have hcode := isAlpha_iff.mp h
  have hdigit : ¬ ('0' ≤ c ∧ c ≤ '9') := by
    simp only [Char.le_def, UInt32.le_iff_toNat_le, Char.toNat_val, Char.reduceToNat]
    omega
  rw [Decimal.digit?, if_neg hdigit]
  simp only [Char.reduceToNat]
  split
  · exact if_neg (by omega)
  · split <;> exact if_neg (by omega)

/-- A word that starts with a letter is no number. -/
theorem number?_eq_none_of_isAlpha {c : Char} (h : c.isAlpha = true) (word : List Char) :
    number? (c :: word) = none := by
  have hblank : Text.isBlank c = false :=
    Text.isBlank_of_isWordChar (by simp [isWordChar, Char.isAlphanum, h])
  have htrim : Text.trim (c :: word) = c :: Text.trimEnd word := by
    rw [Text.trim, Text.trimStart, List.dropWhile_cons, if_neg (by simp [hblank]),
      Text.trimEnd_cons, if_neg (by simp [hblank])]
  have hne (d : Char) (hd : d.isAlpha = false) : c ≠ d := by
    rintro rfl
    simp [h] at hd
  have hread : unsigned? 10 (c :: Text.trimEnd word) = none := by
    unfold unsigned?
    split
    · exact absurd (List.cons.inj ‹_›).1 (hne '+' (by decide))
    · simp [Decimal.read?, Decimal.readFrom?, digit?_ten_eq_none h]
  rw [number?, htrim]
  split
  · exact absurd (List.cons.inj ‹_›).1 (hne '0' (by decide))
  · exact absurd (List.cons.inj ‹_›).1 (hne '0' (by decide))
  · simp [hread]

/-- A word that starts with a letter. -/
def startsWithLetter : List Char → Bool
  | c :: _ => c.isAlpha
  | [] => false

/-- Whether a word is a given one with a letter at its start, in letters of
either case, shows in any word that means the same. -/
theorem SameWord.lowered_eq {a b name : List Char} (h : SameWord true a b)
    (hname : startsWithLetter name = true) (ha : Text.lowered a = Text.lowered name) :
    Text.lowered b = Text.lowered name := by
  rcases h with rfl | ⟨n, hnumber, -⟩ | ⟨-, hletters⟩
  · exact ha
  · cases name with
    | nil => simp [startsWithLetter] at hname
    | cons c name =>
        cases a with
        | nil => simp [Text.lowered] at ha
        | cons d a =>
            have hhead : d.toLower = c.toLower := by simpa using (List.cons.inj ha).1
            have hletter : d.isAlpha = true := by
              rw [← isAlpha_toLower, hhead, isAlpha_toLower]
              exact hname
            simp [number?_eq_none_of_isAlpha hletter] at hnumber
  · rw [← ha]
    exact (beq_iff_eq.mp hletters).symm

theorem SameWord.sameLetters_eq {a b name : List Char} (h : SameWord true a b)
    (hname : startsWithLetter name = true) :
    Text.sameLetters a name = Text.sameLetters b name := by
  rw [Text.sameLetters, Text.sameLetters, Bool.eq_iff_iff, beq_iff_eq, beq_iff_eq]
  exact ⟨h.lowered_eq hname, h.symm.lowered_eq hname⟩

/-- A dotted name of words that start with letters. -/
def IsDottedName (name : List Char) : Prop :=
  ∀ segment ∈ name.splitOn '.', startsWithLetter segment = true

instance (name : List Char) : Decidable (IsDottedName name) :=
  inferInstanceAs (Decidable (∀ segment ∈ name.splitOn '.', startsWithLetter segment = true))

theorem map_lowered_eq_iff {callee callee' segments : List (List Char)}
    (h : List.Forall₂ (SameWord true) callee callee')
    (hsegments : ∀ segment ∈ segments, startsWithLetter segment = true) :
    callee.map Text.lowered = segments.map Text.lowered ↔
      callee'.map Text.lowered = segments.map Text.lowered := by
  induction h generalizing segments with
  | nil => rfl
  | cons hword _ ih =>
      cases segments with
      | nil => simp
      | cons segment segments =>
          have hsegment := hsegments segment (by simp)
          have hrest := ih fun other hother => hsegments other (List.mem_cons_of_mem segment hother)
          have hhead := Iff.intro (hword.lowered_eq hsegment) (hword.symm.lowered_eq hsegment)
          simp only [List.map_cons, List.cons.injEq, hhead, hrest]

theorem isNamed_alike {callee callee' : List (List Char)} {name : List Char}
    (h : List.Forall₂ (SameWord true) callee callee') (hname : IsDottedName name) :
    isNamed name callee = isNamed name callee' := by
  rw [isNamed, isNamed, Bool.eq_iff_iff, beq_iff_eq, beq_iff_eq]
  exact map_lowered_eq_iff h hname

/-! ## Finding -/

theorem rel_or {α β : Type} {R : α → β → Prop} {x x' : Option α} {y y' : Option β}
    (h : Option.Rel R x y) (h' : Option.Rel R x' y') : Option.Rel R (x.or x') (y.or y') := by
  cases h with
  | none => exact h'
  | some hab => exact .some hab

/-- What is computed alike from what is related is equal. -/
theorem bind_eq_of_rel {α β γ : Type} {R : α → β → Prop} {x : Option α} {y : Option β}
    {f : α → Option γ} {g : β → Option γ} (h : Option.Rel R x y)
    (hfg : ∀ a b, R a b → f a = g b) : x.bind f = y.bind g := by
  cases h with
  | none => rfl
  | some hab => exact hfg _ _ hab

theorem startsCall_alike {name : List Char} (hname : startsWithLetter name = true)
    {list list' : List Lexeme} (h : Respelled list list') :
    startsCall name list = startsCall name list' := by
  have hword {a b : List Char} {rest rest' : List Lexeme}
      (hfirst : SameWord (leadsToCall rest) a b) (hrest : Respelled rest rest') :
      startsCall name (.word a :: rest) = startsCall name (.word b :: rest') := by
    cases hrest with
    | nil => rfl
    | @cons next _ _ _ hnext _ =>
        cases hnext with
        | same =>
            cases next with
            | openParen => exact hfirst.sameLetters_eq hname
            | _ => rfl
        | word => rfl
        | stray => rfl
  cases h with
  | nil => rfl
  | @cons first _ _ _ hfirst hrest =>
      cases hfirst with
      | same =>
          cases first with
          | word a => exact hword (.refl _ a) hrest
          | _ => rfl
      | word hfirst => exact hword hfirst hrest
      | stray => rfl

theorem fromCall?_alike {name : List Char} (hname : startsWithLetter name = true)
    {list list' : List Lexeme} (h : Respelled list list') :
    Option.Rel Respelled (fromCall? name list) (fromCall? name list') := by
  induction h with
  | nil => exact .none
  | cons hfirst hrest ih =>
      rw [fromCall?, fromCall?, startsCall_alike hname (.cons hfirst hrest)]
      split
      · exact .some (.cons hfirst hrest)
      · exact ih

theorem findCall_alike {name : List Char} (hname : startsWithLetter name = true)
    {line line' : List Char} (h : Respelled (lexemes line) (lexemes line')) :
    Option.Rel Call.MeansSame (findCall name line) (findCall name line') :=
  rel_bind (fromCall?_alike hname h) fun _ _ _ hstart =>
    rel_bind (readExpr_alike (maxNesting + 1) hstart) fun _ _ _ hread => hread.1.call?

mutual

theorem Expr.MeansSame.find?_alike {name : List Char} (hname : IsDottedName name) :
    {e e' : Expr} → e.MeansSame e' →
      Option.Rel Call.MeansSame (e.find? name) (e'.find? name)
  | .word _, _, h => by cases h; exact .none
  | .path _, _, h => by cases h; exact .none
  | .text _ _, _, h => by cases h; exact .none
  | .call callee arguments, _, h => by
      cases h with
      | call hcallee harguments =>
          rw [Expr.find?, Expr.find?, isNamed_alike hcallee hname]
          split
          · exact .some ⟨hcallee, harguments⟩
          · exact findAmong?_alike hname harguments

theorem findAmong?_alike {name : List Char} (hname : IsDottedName name) :
    {list list' : List Expr} → List.Forall₂ Expr.MeansSame list list' →
      Option.Rel Call.MeansSame (findAmong? name list) (findAmong? name list')
  | [], _, h => by cases h; exact .none
  | first :: rest, _, h => by
      cases h with
      | cons hfirst hrest =>
          rw [findAmong?, findAmong?]
          exact rel_or (hfirst.find?_alike hname) (findAmong?_alike hname hrest)

end

theorem Call.MeansSame.find?_alike {name : List Char} (hname : IsDottedName name)
    {call call' : Call} (h : call.MeansSame call') :
    Option.Rel Call.MeansSame (call.find? name) (call'.find? name) :=
  (Expr.MeansSame.call h.callee h.arguments).find?_alike hname

/-! ## Calls of bytes -/

theorem Expr.MeansSame.word?_alike {e e' : Expr} (h : e.MeansSame e') :
    Option.Rel (SameWord false) e.word? e'.word? := by
  cases h with
  | word h => exact .some h
  | _ => exact .none

/-- Words that mean the same are one number, or one word that is none. -/
theorem number?_alike {a b : List Char} (h : SameWord false a b) :
    number? a = number? b ∧ (number? a = none → a = b) := by
  rcases h with rfl | ⟨n, ha, hb⟩ | ⟨hcalled, -⟩
  · exact ⟨rfl, fun _ => rfl⟩
  · exact ⟨ha.trans hb.symm, fun hnone => absurd (ha.symm.trans hnone) (by simp)⟩
  · exact absurd hcalled (by simp)

theorem Expr.MeansSame.number?_eq {e e' : Expr} (h : e.MeansSame e') :
    e.number? = e'.number? :=
  bind_eq_of_rel h.word?_alike fun _ _ hword => (number?_alike hword).1

theorem numbers_alike {words words' : List (List Char)}
    (h : List.Forall₂ (SameWord false) words words') : numbers words = numbers words' := by
  induction h with
  | nil => rfl
  | @cons a b _ _ hword _ ih =>
      obtain ⟨hnumber, hsame⟩ := number?_alike hword
      rw [numbers, numbers, ← hnumber, ih]
      cases hread : number? a with
      | none => rw [hsame hread]
      | some n => rfl

theorem mapM_word?_alike {arguments arguments' : List Expr}
    (h : List.Forall₂ Expr.MeansSame arguments arguments') :
    Option.Rel (List.Forall₂ (SameWord false)) (arguments.mapM Expr.word?)
      (arguments'.mapM Expr.word?) := by
  induction h with
  | nil => exact .some .nil
  | cons hfirst _ ih =>
      rw [List.mapM_cons, List.mapM_cons]
      exact rel_bind hfirst.word?_alike fun _ _ _ hword =>
        rel_bind ih fun _ _ _ hwords => .some (.cons hword hwords)

theorem words?_alike (callee callee' : List (List Char)) {arguments arguments' : List Expr}
    (h : List.Forall₂ Expr.MeansSame arguments arguments') :
    Option.Rel (List.Forall₂ (SameWord false)) (Call.mk callee arguments).words?
      (Call.mk callee' arguments').words? := by
  cases h with
  | nil => exact .none
  | cons hfirst hrest => exact mapM_word?_alike (.cons hfirst hrest)

theorem Call.MeansSame.bytes?_eq {call call' : Call} (h : call.MeansSame call') :
    call.bytes? = call'.bytes? := by
  rw [Call.bytes?, Call.bytes?, Option.map_eq_bind, Option.map_eq_bind]
  refine bind_eq_of_rel (words?_alike call.callee call'.callee h.arguments) fun _ _ hwords => ?_
  rw [Function.comp_apply, Function.comp_apply, numbers_alike hwords]

/-! ## Texts -/

theorem Expr.MeansSame.literal?_eq {e e' : Expr} (h : e.MeansSame e') :
    e.literal? = e'.literal? := by
  cases h with
  | word => rfl
  | path => rfl
  | text => rfl
  | call hcallee harguments =>
      have hnamed : isNamed encoderCall _ = isNamed encoderCall _ :=
        isNamed_alike hcallee (by decide)
      cases harguments with
      | nil => rfl
      | cons hfirst hrest =>
          cases hrest with
          | cons => cases hfirst <;> rfl
          | nil =>
              cases hfirst with
              | text body interpolated => rw [Expr.literal?, Expr.literal?, hnamed]
              | _ => rfl

theorem sizedText?_alike (callee callee' : List (List Char)) {arguments arguments' : List Expr}
    (h : List.Forall₂ Expr.MeansSame arguments arguments') :
    (Call.mk callee arguments).sizedText? = (Call.mk callee' arguments').sizedText? := by
  match h with
  | .nil => rfl
  | .cons _ .nil => rfl
  | .cons _ (.cons _ .nil) => rfl
  | .cons _ (.cons _ (.cons _ .nil)) => rfl
  | .cons hlead (.cons hcode (.cons hsize (.cons htext .nil))) =>
      unfold Call.sizedText?
      dsimp only
      rw [hlead.number?_eq, hcode.number?_eq, hsize.number?_eq, htext.literal?_eq]
  | .cons _ (.cons _ (.cons _ (.cons _ (.cons _ _)))) => rfl

theorem plainText?_alike (callee callee' : List (List Char)) {arguments arguments' : List Expr}
    (h : List.Forall₂ Expr.MeansSame arguments arguments') :
    (Call.mk callee arguments).plainText? = (Call.mk callee' arguments').plainText? := by
  match h with
  | .nil => rfl
  | .cons htext .nil => simp only [Call.plainText?, htext.literal?_eq]
  | .cons _ (.cons _ _) => rfl

/-! ## Images -/

theorem getLast?_alike {arguments arguments' : List Expr}
    (h : List.Forall₂ Expr.MeansSame arguments arguments') :
    Option.Rel Expr.MeansSame arguments.getLast? arguments'.getLast? := by
  induction h with
  | nil => exact .none
  | cons hfirst hrest ih =>
      cases hrest with
      | nil => exact .some hfirst
      | cons =>
          rw [List.getLast?_cons_cons, List.getLast?_cons_cons]
          exact ih

theorem Call.MeansSame.fileName?_eq {call call' : Call} (h : call.MeansSame call') :
    call.fileName? = call'.fileName? := by
  have hlast := getLast?_alike h.arguments
  rw [Call.fileName?, Call.fileName?, h.arguments.length_eq]
  split
  · rfl
  · generalize call.arguments.getLast? = last, call'.arguments.getLast? = last' at hlast
    cases hlast with
    | none => rfl
    | some hlast => cases hlast <;> rfl

theorem Call.MeansSame.image?_eq {call call' : Call} (h : call.MeansSame call') :
    call.image? = call'.image? := by
  rw [Call.image?, Call.image?, Option.map_eq_bind, Option.map_eq_bind]
  refine bind_eq_of_rel (findAmong?_alike (by decide) h.arguments) fun reader reader' hreader => ?_
  have hfile : (reader.find? joinCall).bind Call.fileName? =
      (reader'.find? joinCall).bind Call.fileName? :=
    bind_eq_of_rel (hreader.find?_alike (by decide)) fun _ _ hjoin => hjoin.fileName?_eq
  rw [Function.comp_apply, Function.comp_apply, hfile]

/-! ## Lines -/

theorem Call.MeansSame.recognize_eq {call call' : Call} (h : call.MeansSame call') :
    call.recognize = call'.recognize := by
  rw [Call.recognize, Call.recognize, h.bytes?_eq,
    sizedText?_alike call.callee call'.callee h.arguments,
    plainText?_alike call.callee call'.callee h.arguments, h.image?_eq]

/-- Two lines whose lexemes mean the same both hold a call or neither does, and
with a call they are recognised as one thing. Without one all depends on whether
the reading of a file is mentioned, and this is looked for in the line as it is
spelled. -/
theorem recognize_eq_of_respelled {line line' : List Char}
    (h : Respelled (lexemes line) (lexemes line')) :
    (findCall outputCall line).isSome = (findCall outputCall line').isSome ∧
      ((findCall outputCall line).isSome = true → recognize line = recognize line') ∧
      (Text.occurs readerCall line = Text.occurs readerCall line' →
        recognize line = recognize line') := by
  have hfound : Option.Rel Call.MeansSame (findCall outputCall line) (findCall outputCall line') :=
    findCall_alike (by decide) h
  rw [recognize, recognize]
  generalize findCall outputCall line = found, findCall outputCall line' = found' at hfound
  cases hfound with
  | none => exact ⟨rfl, fun hsome => absurd hsome (by simp), fun hmention => by rw [hmention]⟩
  | some hcall => exact ⟨rfl, fun _ => hcall.recognize_eq, fun _ => hcall.recognize_eq⟩

/-- Without a call, blanks inside a name hide it. -/
example : recognize "BinaryOut(File.ReadAllBytes(".toList ≠
    recognize "BinaryOut(File . ReadAllBytes(".toList := by decide +kernel

/-- A line that sets a text in large letters. -/
def tidyLine : List Char := "BinaryOut(0x1D, 0x21, 0x01, BIG5.GetBytes(\"0x1D\"));".toList

/-- The line in another spelling. -/
def untidyLine : List Char :=
  " BINARYOUT (29 ,0X21,\t001, big5 . getbytes( \"0x1D\" ) ) ;".toList

/-- Numbers, names and blanks are spelled in other ways, and the text is the
same. -/
theorem respelled_tidyLine : Respelled (lexemes tidyLine) (lexemes untidyLine) := by
  have htidy : lexemes tidyLine =
      [.word "BinaryOut".toList, .openParen, .word "0x1D".toList, .comma, .word "0x21".toList,
        .comma, .word "0x01".toList, .comma, .word "BIG5".toList, .dot, .word "GetBytes".toList,
        .openParen, .text "0x1D".toList false, .closeParen, .closeParen, .semicolon] := by
    decide +kernel
  have huntidy : lexemes untidyLine =
      [.word "BINARYOUT".toList, .openParen, .word "29".toList, .comma, .word "0X21".toList,
        .comma, .word "001".toList, .comma, .word "big5".toList, .dot, .word "getbytes".toList,
        .openParen, .text "0x1D".toList false, .closeParen, .closeParen, .semicolon] := by
    decide +kernel
  have hnumber (n : UInt32) (a b : List Char) (ha : number? a = some n) (hb : number? b = some n)
      (called : Bool) : SameWord called a b := Or.inr (Or.inl ⟨n, ha, hb⟩)
  have hletters (a b : List Char) (h : Text.sameLetters a b = true) : SameWord true a b :=
    Or.inr (Or.inr ⟨rfl, h⟩)
  rw [htidy, huntidy]
  refine .cons (.word (hletters _ _ (by decide))) (.cons (.same _) ?_)
  refine .cons (.word (hnumber 29 _ _ (by decide) (by decide) _)) (.cons (.same _) ?_)
  refine .cons (.word (hnumber 33 _ _ (by decide) (by decide) _)) (.cons (.same _) ?_)
  refine .cons (.word (hnumber 1 _ _ (by decide) (by decide) _)) (.cons (.same _) ?_)
  refine .cons (.word (hletters _ _ (by decide))) (.cons (.same _) ?_)
  exact .cons (.word (hletters _ _ (by decide))) (.refl _)

/-- Both lines are recognised as the text, because the first one is. -/
theorem recognize_untidyLine : Respelled (lexemes tidyLine) (lexemes untidyLine) ∧
    recognize tidyLine = .instruction (.text ⟨"0x1D".toList, false⟩ (some .large)) ∧
    recognize untidyLine = .instruction (.text ⟨"0x1D".toList, false⟩ (some .large)) := by
  have hspec := recognize_eq_of_respelled respelled_tidyLine
  have hcall : (findCall outputCall tidyLine).isSome = true := by decide +kernel
  have htidy : recognize tidyLine =
      .instruction (.text ⟨"0x1D".toList, false⟩ (some .large)) := by decide +kernel
  exact ⟨respelled_tidyLine, htidy, (hspec.2.1 hcall).symm.trans htidy⟩

end TicketPress
