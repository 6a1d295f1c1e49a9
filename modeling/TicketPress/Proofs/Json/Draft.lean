import TicketPress.Proofs.Json.Written

/-!
# Asking for what was written

What is asked of the draft of a value is settled by the value: a record is
collected from its members in their order, a list is asked item by item, and a
known word and an integer in range answer for themselves.
-/

namespace TicketPress.Json

/-! ## Words -/

/-- A word from a known list answers with its meaning. -/
theorem asVariant_draft {α : Type} {known : List (String × α)} {word : String} {meaning : α}
    (h : variant known word = .ok meaning) (depth : Nat) :
    (Value.text word).draft.asVariant known depth = .ok meaning := by
  simp only [Value.draft, Draft.asVariant, lift_ok, h, Answer.ofShape, Bind.bind, Except.bind]

/-! ## Arrays and objects -/

theorem enter_of_lt {depth : Nat} (h : 1 < depth) : enter depth = .ok (depth - 1) :=
  if_neg (Nat.not_le.mpr h)

/-- Collecting from an object goes through its members in their order. -/
theorem collect_draftMembers {σ : Type} (step : σ → String → Draft → Answer σ) (state : σ)
    (members : List (String × Value)) :
    (draftMembers members).collect step state =
      members.foldlM (fun state member => step state member.1 member.2.draft) state := by
  induction members generalizing state with
  | nil => rfl
  | cons member members ih =>
    simp only [draftMembers, Members.collect, Draft.keyName, lift_ok, List.foldlM_cons, Bind.bind,
      Except.bind]
    cases step state member.1 member.2.draft with
    | error fault => rfl
    | ok state => exact ih state

/-- A list of values is asked for what each of them answers. -/
theorem asList_draft {α β : Type} (ask : Nat → Draft → Answer α) (encode : β → Value)
    (answer : β → α) {depth : Nat} (hdepth : 1 < depth) (list : List β)
    (h : ∀ b ∈ list, ask (depth - 1) (encode b).draft = .ok (answer b)) :
    (Value.array (list.map encode)).draft.asList depth ask = .ok (list.map answer) := by
  have heach : (draftItems (list.map encode)).askEach (ask (depth - 1)) =
      .ok (list.map answer) := by
    induction list with
    | nil => rfl
    | cons b list ih =>
      have hfirst := h b List.mem_cons_self
      have hrest := ih fun c hc => h c (List.mem_cons_of_mem b hc)
      simp only [List.map_cons, draftItems, Items.askEach, hfirst, hrest, Bind.bind, Except.bind,
        Pure.pure, Except.pure]
  simp only [Value.draft, Draft.asList, enter_of_lt hdepth, lift_ok, Bind.bind, Except.bind, heach]

/-- A value that is there answers for itself where it may be left out. -/
theorem asOption_eq {α : Type} {ask : Draft → Answer α} {draft : Draft} {a : α}
    (h : ask draft = .ok a) (hthere : draft ≠ .null) : draft.asOption ask = .ok (some a) := by
  rw [Draft.asOption, h]
  · rfl
  · exact hthere

/-! ## Integers -/

theorem value_draft_integer {i : Int} (h : InRange i) (depth : Nat) :
    (Value.number (.integer i)).draft.value depth = .ok (.number (.integer i)) := by
  obtain ⟨numeral, hdraft, hnumber⟩ := Number.draft_integer h
  simp only [Value.draft, hdraft, Draft.value, hnumber, Except.map]

/-- A natural number of 64 bits is asked for as its float. -/
theorem asFloat_draft_ofNat {n : Nat} (h : n ≤ largest) :
    (Value.ofNat n).draft.asFloat = .ok n.toUInt64.toFloat := by
  have hlow : Int64.minValue.toInt ≤ 0 := by decide
  have hsign : ¬(n : Int) < 0 := by omega
  obtain ⟨numeral, hdraft, hnumber⟩ := Number.draft_integer (i := n) ⟨by omega, by omega⟩
  simp only [Value.ofNat, Value.draft, hdraft, Draft.asFloat, hnumber, lift_ok, if_neg hsign,
    Int.natAbs_natCast, Bind.bind, Except.bind, Pure.pure, Except.pure]

/-- A natural number of 64 bits is asked for as an offset. -/
theorem asOffset_draft_ofNat {n : Nat} (h : n ≤ largest) :
    (Value.ofNat n).draft.asOffset = .ok n := by
  have hlow : Int64.minValue.toInt ≤ 0 := by decide
  have hinside : (0 : Int) ≤ n ∧ (n : Int) ≤ largest := ⟨by omega, by omega⟩
  obtain ⟨numeral, hdraft, hnumber⟩ := Number.draft_integer (i := n) ⟨by omega, by omega⟩
  simp only [Value.ofNat, Value.draft, hdraft, Draft.asOffset, Draft.asInteger, hnumber, lift_ok,
    Number.asInteger, if_pos hinside, Bind.bind, Except.bind, Pure.pure, Except.pure, Except.map,
    Int.toNat_natCast]

end TicketPress.Json
