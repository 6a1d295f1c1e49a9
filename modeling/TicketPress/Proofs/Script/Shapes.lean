import TicketPress.Proofs.Script.SafeReading

/-!
# A call has one shape

A call is tried as bytes, as a text with its size, as a text alone and as an
image, and the first shape that fits counts. No two of them fit one call, so
the order is a matter of speed only: `Call.recognize_eq_of_any_order`. What
keeps them apart are the arguments. A word is no literal, and neither of the
two can have the reading of a file inside, at whatever depth: a word has no
inside, and a literal is a call of another name on a text. Bytes are words
only, a text with its size is three words and a literal, a text alone is one
literal, and an image has an argument with the reading of a file.
-/

namespace TicketPress

/-! ## Kinds of arguments -/

namespace Expr

theorem eq_word_of_word? {e : Expr} {spelling : List Char} (h : e.word? = some spelling) :
    e = .word spelling := by
  cases e with
  | word found => rw [Option.some.inj h]
  | _ => exact absurd h (by simp [word?])

theorem exists_word?_of_number? {e : Expr} {n : UInt32} (h : e.number? = some n) :
    ∃ spelling, e.word? = some spelling := by
  obtain ⟨spelling, hword, -⟩ := Option.bind_eq_some_iff.mp h
  exact ⟨spelling, hword⟩

/-- A word is no literal. -/
theorem literal?_eq_none_of_word? {e : Expr} {spelling : List Char}
    (h : e.word? = some spelling) : e.literal? = none := by
  rw [eq_word_of_word? h]
  simp [literal?]

/-- A word has no call inside. -/
theorem find?_eq_none_of_word? {e : Expr} {spelling : List Char}
    (h : e.word? = some spelling) (name : List Char) : e.find? name = none := by
  rw [eq_word_of_word? h]
  simp [find?]

/-- A literal does not read a file: its own name is another one, and its only
argument is a text. -/
theorem find?_eq_none_of_literal? {e : Expr} {literal : Literal}
    (h : e.literal? = some literal) : e.find? readerCall = none := by
  obtain ⟨callee, hnamed, rfl⟩ := of_literal? h
  have hother : isNamed readerCall callee = false := by
    rw [isNamed, beq_iff_eq] at hnamed
    rw [isNamed, hnamed]
    decide
  simp [find?, findAmong?, hother]

end Expr

/-! ## Shapes that exclude each other -/

namespace Call

variable {call : Call}

theorem exists_word?_of_bytes? {r : Recognition} (h : call.bytes? = some r) {e : Expr}
    (he : e ∈ call.arguments) : ∃ spelling, e.word? = some spelling := by
  cases hword : e.word? with
  | some spelling => exact ⟨spelling, rfl⟩
  | none =>
      have hnone : call.bytes? = none := bytes?_eq_none he hword
      rw [hnone] at h
      exact absurd h (by simp)

theorem image?_eq_none (h : ∀ e ∈ call.arguments, e.find? readerCall = none) :
    call.image? = none := by
  cases hfound : findAmong? readerCall call.arguments with
  | none => rw [image?, hfound, Option.map_none]
  | some reader =>
      obtain ⟨e, he, hfind⟩ := exists_of_findAmong? hfound
      rw [h e he] at hfind
      exact absurd hfind (by simp)

theorem sizedText?_eq_none (h : ∀ e ∈ call.arguments, e.literal? = none) :
    call.sizedText? = none := by
  cases hsized : call.sizedText? with
  | none => rfl
  | some i =>
      obtain ⟨lead, code, size, text, n, literal, harguments, -, -, -, hliteral, -⟩ :=
        of_sizedText? hsized
      rw [h text (by simp [harguments])] at hliteral
      exact absurd hliteral (by simp)

theorem plainText?_eq_none (h : ∀ e ∈ call.arguments, e.literal? = none) :
    call.plainText? = none := by
  cases hplain : call.plainText? with
  | none => rfl
  | some i =>
      obtain ⟨text, literal, harguments, hliteral, -⟩ := of_plainText? hplain
      rw [h text (by simp [harguments])] at hliteral
      exact absurd hliteral (by simp)

/-- Bytes are nothing else, whether they are decoded or not. -/
theorem eq_none_of_bytes? {r : Recognition} (h : call.bytes? = some r) :
    call.sizedText? = none ∧ call.plainText? = none ∧ call.image? = none := by
  have hliteral : ∀ e ∈ call.arguments, e.literal? = none := by
    intro e he
    obtain ⟨spelling, hword⟩ := exists_word?_of_bytes? h he
    exact Expr.literal?_eq_none_of_word? hword
  refine ⟨sizedText?_eq_none hliteral, plainText?_eq_none hliteral, image?_eq_none ?_⟩
  intro e he
  obtain ⟨spelling, hword⟩ := exists_word?_of_bytes? h he
  exact Expr.find?_eq_none_of_word? hword readerCall

/-- A text with its size is neither a text alone nor an image. -/
theorem eq_none_of_sizedText? {i : Instruction} (h : call.sizedText? = some i) :
    call.plainText? = none ∧ call.image? = none := by
  obtain ⟨lead, code, size, text, n, literal, harguments, hlead, hcode, hsize, hliteral, -⟩ :=
    of_sizedText? h
  have hword : ∀ e ∈ [lead, code, size], e.find? readerCall = none := by
    intro e he
    obtain ⟨spelling, hspelling⟩ : ∃ spelling, e.word? = some spelling := by
      simp only [List.mem_cons, List.not_mem_nil, or_false] at he
      rcases he with rfl | rfl | rfl
      · exact Expr.exists_word?_of_number? hlead
      · exact Expr.exists_word?_of_number? hcode
      · exact Expr.exists_word?_of_number? hsize
    exact Expr.find?_eq_none_of_word? hspelling readerCall
  constructor
  · rw [plainText?, harguments]
  · apply image?_eq_none
    intro e he
    have hsplit : e ∈ [lead, code, size] ∨ e = text := by
      simpa [harguments, or_assoc] using he
    rcases hsplit with hfront | rfl
    · exact hword e hfront
    · exact Expr.find?_eq_none_of_literal? hliteral

/-- A text alone is no image. -/
theorem eq_none_of_plainText? {i : Instruction} (h : call.plainText? = some i) :
    call.image? = none := by
  obtain ⟨text, literal, harguments, hliteral, -⟩ := of_plainText? h
  apply image?_eq_none
  intro e he
  obtain rfl : e = text := by simpa [harguments] using he
  exact Expr.find?_eq_none_of_literal? hliteral

/-! ## The order of the shapes -/

/-- The shapes of a call in the order in which they are tried, each with what
it makes of a call. -/
def shapes : List (Call → Option Recognition) :=
  [bytes?, fun call => call.sizedText?.map .instruction,
   fun call => call.plainText?.map .instruction, fun call => call.image?.map .instruction]

/-- What a call is recognised as if the shapes are tried in another order. -/
def recognizeIn (order : List (Call → Option Recognition)) (call : Call) : Recognition :=
  (order.findSome? (· call)).getD (.unrecognized none)

theorem recognizeIn_shapes (call : Call) : call.recognizeIn shapes = call.recognize := by
  rw [recognizeIn, recognize]
  cases hbytes : call.bytes? <;> cases hsized : call.sizedText? <;>
    cases hplain : call.plainText? <;> cases himage : call.image? <;>
      simp [shapes, hbytes, hsized, hplain, himage]

/-- At most one shape fits a call. -/
theorem length_filterMap_shapes_le (call : Call) :
    (shapes.filterMap (· call)).length ≤ 1 := by
  cases hbytes : call.bytes? with
  | some r =>
      obtain ⟨hsized, hplain, himage⟩ := eq_none_of_bytes? hbytes
      simp [shapes, hbytes, hsized, hplain, himage]
  | none =>
      cases hsized : call.sizedText? with
      | some i =>
          obtain ⟨hplain, himage⟩ := eq_none_of_sizedText? hsized
          simp [shapes, hbytes, hsized, hplain, himage]
      | none =>
          cases hplain : call.plainText? with
          | some i => simp [shapes, hbytes, hsized, hplain, eq_none_of_plainText? hplain]
          | none => cases himage : call.image? <;> simp [shapes, hbytes, hsized, hplain, himage]

/-- At most one shape fits a call, so the shapes recognise it as the same thing
in every order. In particular a call of words, whether it can be decoded or not,
has no other shape. -/
theorem recognize_eq_of_any_order (call : Call) :
    (shapes.filterMap (· call)).length ≤ 1 ∧
    (∀ order, order.Perm shapes → call.recognizeIn order = call.recognize) ∧
    (∀ r, call.bytes? = some r →
      call.sizedText? = none ∧ call.plainText? = none ∧ call.image? = none) := by
  have hone := call.length_filterMap_shapes_le
  refine ⟨hone, fun order horder => ?_, fun r => eq_none_of_bytes?⟩
  have hperm : (order.filterMap (· call)).Perm (shapes.filterMap (· call)) :=
    horder.filterMap _
  have hsame : order.filterMap (· call) = shapes.filterMap (· call) := by
    -- A list of one or none has no other order.
    generalize shapes.filterMap (· call) = fits at hone hperm ⊢
    match fits with
    | [] => exact List.perm_nil.mp hperm
    | [r] => exact List.perm_singleton.mp hperm
    | r :: r' :: more => simp at hone
  rw [← recognizeIn_shapes, recognizeIn, recognizeIn, ← List.head?_filterMap,
    ← List.head?_filterMap, hsame]

/-- A call with the reading of a file deep inside its first argument, in letters
of either case, and with a literal behind it. -/
def deepImage : Call where
  callee := [outputCall]
  arguments :=
    [.call ["Load".toList] [.path ["a".toList, "b".toList],
      .call ["file".toList, "readALLbytes".toList]
        [.call ["Path".toList, "COMBINE".toList] [.word "dir".toList, .text "logo.bin".toList false]]],
     .call (encoderCall.splitOn '.') [.text "text".toList false]]

/-- A call of words of which one is no number. -/
def oddBytes : Call where
  callee := [outputCall]
  arguments := [.word "0x1B".toList, .word "0xZZ".toList]

/-- The first is an image in whatever order the shapes are tried, and the second
is nothing but bytes that are not decoded. -/
theorem recognizeIn_reverse_deepImage :
    shapes.reverse.Perm shapes ∧
    deepImage.recognizeIn shapes.reverse = .instruction (.loadImage "logo.bin".toList) ∧
    oddBytes.bytes? = some (.invalidNumber "0xZZ".toList) ∧ oddBytes.image? = none := by
  have hperm : shapes.reverse.Perm shapes := List.reverse_perm shapes
  have hodd : oddBytes.bytes? = some (.invalidNumber "0xZZ".toList) := by decide
  refine ⟨hperm, ?_, hodd, ((recognize_eq_of_any_order oddBytes).2.2 _ hodd).2.2⟩
  rw [(recognize_eq_of_any_order deepImage).2.1 _ hperm]
  decide

end Call

end TicketPress
