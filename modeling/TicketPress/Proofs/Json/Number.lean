import TicketPress.Json.Decode
import TicketPress.Json.Writer
import TicketPress.Proofs.Decimal.Reading
import TicketPress.Proofs.Json.Numeral

/-!
# Reading back numbers

A number whose text is a numeral is read inside a document as it is by itself
(`Number.Legible.readValue`). That the numeral means the number is a computation
on the digits of an integer. How a float is written is settled by a search for
few digits, and that those mean the float is taken from whoever knows it:
`ReadsBack` says it of one float.
-/

namespace TicketPress.Json

@[simp] theorem lift_ok {α : Type} (a : α) : Answer.lift (.ok a) = .ok a := rfl

@[simp] theorem lift_error {α : Type} (cause : Cause) :
    Answer.lift (.error cause : Except Cause α) = .error (.broken cause) := rfl

/-! ## Numbers that can be read back -/

/-- What the text of a number is read as. -/
def Number.draft (n : Number) : Draft := (Document.read (String.ofList n.write)).root

/-- Whether the text of a number is a numeral; that of a float without a form
is none. -/
def Number.Legible (n : Number) : Prop :=
  ∃ numeral, Document.read (String.ofList n.write) = ⟨.number numeral, true⟩

theorem Number.document_write_of_readNumeral {n : Number} {numeral : Numeral}
    (h : readNumeral n.write = (.number numeral, some [])) :
    Document.read (String.ofList n.write) = ⟨.number numeral, true⟩ := by
  rw [← skipSpace_of_readNumeral h] at h
  simp [Document.read, readValue_of_readNumeral h, skipSpace]

theorem Number.Legible.exists_numeral {n : Number} (h : n.Legible) :
    ∃ numeral left, n.draft = .number numeral ∧
      readNumeral (skipSpace n.write) = (.number numeral, some left) ∧ skipSpace left = [] := by
  obtain ⟨numeral, hdocument⟩ := h
  have hdraft : n.draft = .number numeral := by rw [draft, hdocument]
  simp only [Document.read, String.toList_ofList] at hdocument
  split at hdocument
  · rename_i root left hread
    simp only [Document.mk.injEq, decide_eq_true_eq] at hdocument
    obtain ⟨rfl, hleft⟩ := hdocument
    exact ⟨numeral, left, hdraft, readNumeral_of_readValue hread, hleft⟩
  · simp at hdocument

/-- Inside a document a number is read as it is by itself, and at most blanks
are left of it. -/
theorem Number.Legible.readValue {n : Number} (h : n.Legible) {rest : List Char}
    (hrest : EndsNumeral rest) (fuel : Nat) :
    ∃ left, readValue (fuel + 1) (n.write ++ rest) = (n.draft, some left) ∧
      skipSpace left = skipSpace rest := by
  obtain ⟨numeral, left, hdraft, hread, hleft⟩ := h.exists_numeral
  refine ⟨left ++ rest, ?_, ?_⟩
  · rw [hdraft]
    exact readValue_append hrest (readValue_of_readNumeral hread 0) fuel
  · rw [skipSpace_append, hleft, List.isEmpty_nil, if_pos rfl]

/-! ### Integers -/

/-- Whether a document can hold the integer as one: it has 64 bits, with a sign
or without. -/
def InRange (i : Int) : Prop := Int64.minValue.toInt ≤ i ∧ i ≤ largest

theorem le_foldl_digits (value : Nat) (digits : List Nat) :
    value ≤ digits.foldl (fun value d => value * 10 + d) value := by
  induction digits generalizing value with
  | nil => exact Nat.le_refl value
  | cons d digits ih =>
    have hrest := ih (value * 10 + d)
    rw [List.foldl_cons]
    omega

/-- Digits whose number fits into 64 bits are gathered without a rest. -/
theorem gather_eq {value : Nat} {digits : List Nat}
    (h : digits.foldl (fun value d => value * 10 + d) value ≤ largest) :
    gather value digits = (digits.foldl (fun value d => value * 10 + d) value, []) := by
  induction digits generalizing value with
  | nil => rfl
  | cons d digits ih =>
    rw [List.foldl_cons] at h ⊢
    have hfirst := le_foldl_digits (value * 10 + d) digits
    rw [gather, if_pos (by omega), ih h]

theorem takeDigits_append_of_digits {a : List Char} {digits : List Nat}
    (h : takeDigits a = (digits, [])) (b : List Char) :
    takeDigits (a ++ b) = (digits ++ (takeDigits b).1, (takeDigits b).2) := by
  induction a generalizing digits with
  | nil =>
    cases h
    rfl
  | cons c a ih =>
    simp only [List.cons_append, takeDigits] at h ⊢
    cases hd : Decimal.digit? 10 c with
    | none => simp [hd] at h
    | some d =>
      simp only [hd, Prod.mk.injEq] at h ⊢
      obtain ⟨rfl, hleft⟩ := h
      rw [ih (Prod.ext rfl hleft)]
      exact ⟨rfl, rfl⟩

theorem takeDigits_digitChar {d : Nat} (h : d < 10) : takeDigits [d.digitChar] = ([d], []) := by
  have hall : ∀ d < 10, takeDigits [d.digitChar] = ([d], []) := by decide
  exact hall d h

/-- The digits of a number are taken as digits with its value, and the first
of them is no zero unless it is the only one. -/
theorem takeDigits_write (n : Nat) :
    ∃ digits, takeDigits (Decimal.write n) = (digits, []) ∧ digitsValue digits = n ∧
      (digits = [0] ∨ ∃ d rest, digits = (d + 1) :: rest) := by
  induction n using Nat.strongRecOn with
  | ind n ih =>
    rw [Decimal.write, Nat.toDigits_eq_if (by decide)]
    split
    · rename_i hn
      refine ⟨[n], takeDigits_digitChar hn, by simp [digitsValue], ?_⟩
      cases n with
      | zero => exact .inl rfl
      | succ d => exact .inr ⟨d, [], rfl⟩
    · rename_i hn
      obtain ⟨digits, htake, hvalue, hfirst⟩ := ih (n / 10) (by omega)
      have hlast := takeDigits_digitChar (Nat.mod_lt n (by decide : 0 < 10))
      refine ⟨digits ++ [n % 10], ?_, ?_, .inr ?_⟩
      · rw [← Decimal.write, takeDigits_append_of_digits htake, hlast]
      · rw [digitsValue, List.foldl_append, ← digitsValue, hvalue]
        exact Nat.div_add_mod' n 10
      · rcases hfirst with rfl | ⟨d, rest, rfl⟩
        · simp [digitsValue] at hvalue
          omega
        · exact ⟨d, rest ++ [n % 10], rfl⟩

theorem readMagnitude_write (negative : Bool) (n : Nat) :
    ∃ digits, readMagnitude negative (Decimal.write n) = .ok (⟨negative, digits, [], none⟩, []) ∧
      digitsValue digits = n := by
  obtain ⟨digits, htake, hvalue, hfirst⟩ := takeDigits_write n
  refine ⟨digits, ?_, hvalue⟩
  have hwhole : readWhole (Decimal.write n) = .ok (digits, []) := by
    rcases hfirst with rfl | ⟨d, rest, rfl⟩ <;> simp [readWhole, htake]
  simp [readMagnitude, hwhole, readFraction, readExponent, Bind.bind, Except.bind, Pure.pure,
    Except.pure]

theorem readNumeral_writeInt (i : Int) :
    ∃ digits, readNumeral (Decimal.writeInt i) =
      (.number ⟨decide (i < 0), digits, [], none⟩, some []) ∧ digitsValue digits = i.natAbs := by
  obtain ⟨digits, hread, hvalue⟩ := readMagnitude_write (decide (i < 0)) i.natAbs
  refine ⟨digits, ?_, hvalue⟩
  unfold Decimal.writeInt
  split
  · rename_i hneg
    rw [decide_eq_true hneg] at hread ⊢
    exact readNumeral_of_minus hread
  · rename_i hneg
    rw [decide_eq_false hneg] at hread ⊢
    refine readNumeral_of_magnitude (fun hsign => ?_) hread
    have hdigit := Decimal.isDigit_of_mem_write (List.mem_of_head? hsign)
    simp [Char.isDigit] at hdigit

/-- The digits of an integer in range mean the integer. -/
theorem number_of_digits {i : Int} (h : InRange i) {digits : List Nat}
    (hvalue : digitsValue digits = i.natAbs) :
    (⟨decide (i < 0), digits, [], none⟩ : Numeral).number = .ok (.integer i) := by
  obtain ⟨hlow, hhigh⟩ := h
  have hbound : i.natAbs ≤ largest := by
    have hlarge : (-Int64.minValue.toInt) ≤ largest := by decide
    omega
  have hgather : gather 0 digits = (i.natAbs, []) := by
    rw [gather_eq (by rw [← digitsValue]; omega), ← digitsValue, hvalue]
  have hinteger : integer? (decide (i < 0)) i.natAbs = some i := by
    unfold integer?
    split
    · rename_i hneg
      have hneg := of_decide_eq_true hneg
      have habs : -(i.natAbs : Int) = i := by omega
      simp only [habs]
      rw [if_pos ⟨hneg, hlow⟩]
    · rename_i hneg
      have hneg := of_decide_eq_false (Bool.eq_false_iff.mpr hneg)
      rw [Option.some.injEq]
      omega
  simp [Numeral.number, hgather, hinteger]

theorem Number.legible_integer (i : Int) : (Number.integer i).Legible := by
  obtain ⟨digits, hread, -⟩ := readNumeral_writeInt i
  exact ⟨_, document_write_of_readNumeral hread⟩

/-- An integer in range is read back. -/
theorem Number.draft_integer {i : Int} (h : InRange i) :
    ∃ numeral, (Number.integer i).draft = .number numeral ∧ numeral.number = .ok (.integer i) := by
  obtain ⟨digits, hread, hvalue⟩ := readNumeral_writeInt i
  refine ⟨_, ?_, number_of_digits h hvalue⟩
  rw [draft, document_write_of_readNumeral (n := .integer i) hread]

/-! ### Floats -/

/-- Whether a float is written in a form that is read as the same float. -/
def ReadsBack (x : Float) : Prop :=
  decode (fun _ => Draft.asFloat) (String.ofList (Number.float x).write) = .ok x

theorem readsBack_of_numeral {x : Float} {numeral : Numeral}
    (hread : readNumeral (Number.float x).write = (.number numeral, some []))
    (hnumber : numeral.number = .ok (.float x)) : ReadsBack x := by
  rw [ReadsBack, decode, Number.document_write_of_readNumeral hread]
  simp [Draft.asFloat, hnumber, lift_ok, Bind.bind, Except.bind, Pure.pure,
    Except.pure]

theorem mismatch_ne_ok {α : Type} (draft : Draft) (expected : String) (a : α) :
    draft.mismatch expected ≠ .ok a := by
  unfold Draft.mismatch
  cases draft.found <;> simp [Answer.refuse, Bind.bind, Except.bind]

theorem exists_numeral_of_asFloat {draft : Draft} {x : Float} (h : draft.asFloat = .ok x) :
    ∃ numeral, draft = .number numeral := by
  cases draft with
  | number numeral => exact ⟨numeral, rfl⟩
  | _ => exact absurd h (mismatch_ne_ok _ _ _)

theorem ReadsBack.document {x : Float} (h : ReadsBack x) :
    ∃ draft, draft.asFloat = .ok x ∧
      Document.read (String.ofList (Number.float x).write) = ⟨draft, true⟩ := by
  unfold ReadsBack decode at h
  rcases hdocument : Document.read (String.ofList (Number.float x).write) with ⟨root, finished⟩
  rw [hdocument] at h
  rcases hroot : root.asFloat with fault | y
  · simp [hroot, Bind.bind, Except.bind] at h
  · cases finished with
    | false => simp [hroot, Bind.bind, Except.bind] at h
    | true =>
      simp only [hroot, Bind.bind, Except.bind, if_true, Pure.pure, Except.pure, Except.ok.injEq] at h
      exact ⟨root, h ▸ hroot, rfl⟩

theorem ReadsBack.legible {x : Float} (h : ReadsBack x) : (Number.float x).Legible := by
  obtain ⟨draft, hfloat, hdocument⟩ := h.document
  obtain ⟨numeral, rfl⟩ := exists_numeral_of_asFloat hfloat
  exact ⟨numeral, hdocument⟩

theorem ReadsBack.asFloat_draft {x : Float} (h : ReadsBack x) :
    (Number.float x).draft.asFloat = .ok x := by
  obtain ⟨draft, hfloat, hdocument⟩ := h.document
  rw [Number.draft, hdocument, hfloat]

end TicketPress.Json
