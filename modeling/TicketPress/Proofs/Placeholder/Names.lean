import TicketPress.Proofs.Placeholder.Parts

/-!
# The names of a text

The search for names goes on at two different places: behind a placeholder it
has found, and right behind an opening brace that led to none. What it passes
over in the first case is a name and a closing brace, so it never passes over
an opening brace, and every well-formed placeholder has its turn.

`placed` lists the well-formed placeholders of a text by looking at every place.
`map_placed` says that the search finds the same names.
-/

namespace TicketPress.Placeholder

open Text

/-- A name that is listed: it is not empty and holds no blank and no brace. -/
structure WellFormed (name : List Char) : Prop where
  nonempty : name ≠ []
  plain : ∀ c ∈ name, isBlank c = false ∧ c ≠ '\x7b' ∧ c ≠ '\x7d'

theorem wellFormed_iff {name : List Char} :
    WellFormed name ↔ isName name = true ∧ '\x7d' ∉ name := by
  simp only [isName, Bool.and_eq_true, decide_eq_true_eq, List.all_eq_true,
    Bool.not_eq_eq_eq_not, Bool.not_true]
  constructor
  · rintro ⟨hne, hplain⟩
    refine ⟨⟨hne, fun c hc => ?_⟩, fun hclose => (hplain _ hclose).2.2 rfl⟩
    exact ⟨(hplain c hc).1, (hplain c hc).2.1⟩
  · rintro ⟨⟨hne, hall⟩, hclose⟩
    refine ⟨hne, fun c hc => ⟨(hall c hc).1, (hall c hc).2, ?_⟩⟩
    rintro rfl
    exact hclose hc

theorem WellFormed.braceFree {name : List Char} (h : WellFormed name) : BraceFree name :=
  ⟨fun hopen => (h.plain _ hopen).2.1 rfl, fun hclose => (h.plain _ hclose).2.2 rfl⟩

/-! ## Looking at every place -/

/-- The name of the well-formed placeholder at the start of a text. -/
def listedAt? (text : List Char) : Option (List Char) := (nameAt? text).filter isName

theorem listedAt?_eq_some_iff {text name : List Char} :
    listedAt? text = some name ↔ WellFormed name ∧ written name <+: text := by
  rw [listedAt?, Option.filter_eq_some_iff, nameAt?_eq_some_iff]
  constructor
  · rintro ⟨⟨hfree, hpre⟩, hname⟩
    exact ⟨wellFormed_iff.mpr ⟨hname, hfree.2⟩, hpre⟩
  · rintro ⟨hwell, hpre⟩
    exact ⟨⟨hwell.braceFree, hpre⟩, (wellFormed_iff.mp hwell).1⟩

/-- The well-formed placeholders of a text that starts at the given place, each
with the place of its opening brace. -/
def placed (place : Nat) : List Char → List (Nat × List Char)
  | [] => []
  | c :: text => ((listedAt? (c :: text)).map (place, ·)).toList ++ placed (place + 1) text

theorem mem_placed_iff {place found : Nat} {text name : List Char} :
    (found, name) ∈ placed place text ↔
      ∃ before, found = place + before ∧ WellFormed name ∧
        written name <+: text.drop before := by
  induction text generalizing place with
  | nil => simp [placed, written]
  | cons c text ih =>
      have hhead : (found, name) ∈ ((listedAt? (c :: text)).map (place, ·)).toList ↔
          found = place ∧ WellFormed name ∧ written name <+: c :: text := by
        rw [← listedAt?_eq_some_iff, Option.mem_toList, Option.map_eq_some_iff]
        simp only [Prod.mk.injEq]
        constructor
        · rintro ⟨_, hlisted, rfl, rfl⟩
          exact ⟨rfl, hlisted⟩
        · rintro ⟨rfl, hlisted⟩
          exact ⟨name, hlisted, rfl, rfl⟩
      rw [placed, List.mem_append, hhead, ih]
      constructor
      · rintro (⟨rfl, h⟩ | ⟨before, rfl, h⟩)
        · exact ⟨0, rfl, h⟩
        · exact ⟨before + 1, by omega, h⟩
      · rintro ⟨before, rfl, h⟩
        cases before with
        | zero => exact Or.inl ⟨rfl, h⟩
        | succ before => exact Or.inr ⟨before, by omega, h⟩

theorem pairwise_placed (place : Nat) (text : List Char) :
    (placed place text).Pairwise fun a b => a.1 < b.1 := by
  induction text generalizing place with
  | nil => exact List.Pairwise.nil
  | cons c text ih =>
      have hlater : ∀ entry ∈ placed (place + 1) text, place < entry.1 := by
        rintro ⟨found, name⟩ hmem
        obtain ⟨before, rfl, -⟩ := mem_placed_iff.mp hmem
        omega
      rw [placed]
      cases listedAt? (c :: text) with
      | none => exact ih (place + 1)
      | some name => exact List.pairwise_cons.mpr ⟨hlater, ih (place + 1)⟩

/-! ## What the search passes over -/

theorem placed_cons_of_none {c : Char} {text : List Char} (h : listedAt? (c :: text) = none)
    (place : Nat) : placed place (c :: text) = placed (place + 1) text := by
  rw [placed, h]
  rfl

/-- A placeholder begins with an opening brace, so text without one is passed
over. -/
theorem placed_append_of_not_mem {before : List Char} (h : '\x7b' ∉ before) (place : Nat)
    (text : List Char) : placed place (before ++ text) = placed (place + before.length) text := by
  induction before generalizing place with
  | nil => rfl
  | cons c before ih =>
      obtain ⟨hc, hrest⟩ : '\x7b' ≠ c ∧ '\x7b' ∉ before := by simpa using h
      have hnone : listedAt? (c :: (before ++ text)) = none := by
        simp [listedAt?, nameAt?, Ne.symm hc]
      rw [List.cons_append, placed_cons_of_none hnone, ih hrest, List.length_cons,
        Nat.add_right_comm, Nat.add_assoc]

/-- Without a closing brace there is no placeholder. -/
theorem placed_of_close_not_mem {text : List Char} (h : '\x7d' ∉ text) (place : Nat) :
    placed place text = [] := by
  refine List.eq_nil_iff_forall_not_mem.mpr ?_
  rintro ⟨found, name⟩ hmem
  obtain ⟨before, -, -, hpre⟩ := mem_placed_iff.mp hmem
  exact h (List.mem_of_mem_drop (hpre.subset (by simp [written])))

/-- A well-formed placeholder is listed, and the next one comes behind it. -/
theorem placed_written {name : List Char} (h : WellFormed name) (place : Nat)
    (rest : List Char) :
    placed place (written name ++ rest) =
      (place, name) :: placed (place + (written name).length) rest := by
  have hlisted : listedAt? (written name ++ rest) = some name :=
    listedAt?_eq_some_iff.mpr ⟨h, List.prefix_append (written name) rest⟩
  have hpass : '\x7b' ∉ name ++ ['\x7d'] := by simp [h.braceFree.1]
  rw [written_append] at hlisted ⊢
  rw [placed, hlisted, List.append_cons, placed_append_of_not_mem hpass]
  simp [written, Nat.add_comm, Nat.add_left_comm]

/-- If no name stands before the first closing brace, the opening brace before
it starts no placeholder. -/
theorem listedAt?_eq_none {after between rest : List Char}
    (hclose : breakOn ['\x7d'] after = some (between, rest)) (h : isName between = false) :
    listedAt? ('\x7b' :: after) = none := by
  refine Option.eq_none_iff_forall_ne_some.mpr fun name hlisted => ?_
  obtain ⟨hwell, more, hmore⟩ := listedAt?_eq_some_iff.mp hlisted
  obtain ⟨hname, hfree⟩ := wellFormed_iff.mp hwell
  rw [written_append, List.cons.injEq] at hmore
  have hother : breakOn ['\x7d'] after = some (name, more) :=
    breakOn_singleton_eq_some_iff.mpr ⟨hmore.2.symm, hfree⟩
  obtain ⟨rfl, -⟩ : between = name ∧ rest = more := by simpa using hclose.symm.trans hother
  rw [h] at hname
  exact absurd hname (by simp)

/-! ## The search -/

/-- The search finds the names of all well-formed placeholders. -/
theorem map_placed (place : Nat) (text : List Char) :
    (placed place text).map Prod.snd = names text := by
  fun_induction names text generalizing place with
  | case1 text hopen =>
      have hnone := breakOn_singleton_eq_none_iff.mp hopen
      rw [← List.append_nil text, placed_append_of_not_mem hnone]
      rfl
  | case2 text before after hopen _ hclose =>
      obtain ⟨rfl, hbefore⟩ := breakOn_singleton_eq_some_iff.mp hopen
      have hnone : '\x7d' ∉ '\x7b' :: after := by
        simpa using breakOn_singleton_eq_none_iff.mp hclose
      rw [placed_append_of_not_mem hbefore, placed_of_close_not_mem hnone]
      rfl
  | case3 text before after hopen _ between rest hclose _ hname ih =>
      obtain ⟨rfl, hbefore⟩ := breakOn_singleton_eq_some_iff.mp hopen
      obtain ⟨rfl, hbetween⟩ := breakOn_singleton_eq_some_iff.mp hclose
      have hwell := wellFormed_iff.mpr ⟨hname, hbetween⟩
      rw [placed_append_of_not_mem hbefore, ← written_append, placed_written hwell,
        List.map_cons, ih]
  | case4 text before after hopen _ between rest hclose _ hname ih =>
      obtain ⟨rfl, hbefore⟩ := breakOn_singleton_eq_some_iff.mp hopen
      have hnone := listedAt?_eq_none hclose (by simpa using hname)
      rw [placed_append_of_not_mem hbefore, placed_cons_of_none hnone, ih]

/-- A name is listed exactly if its placeholder is well-formed and stands in the
text. -/
theorem mem_names_iff {text name : List Char} :
    name ∈ names text ↔ WellFormed name ∧ written name <:+: text := by
  rw [← map_placed 0 text, List.mem_map]
  constructor
  · rintro ⟨⟨place, _⟩, hmem, rfl⟩
    obtain ⟨before, -, hwell, hpre⟩ := mem_placed_iff.mp hmem
    exact ⟨hwell, hpre.isInfix.trans (List.drop_suffix before text).isInfix⟩
  · rintro ⟨hwell, before, after, rfl⟩
    refine ⟨(before.length, name), mem_placed_iff.mpr ⟨before.length, by simp, hwell, ?_⟩, rfl⟩
    rw [List.append_assoc, List.drop_left]
    exact List.prefix_append (written name) after

/-- The names of a text are those of its well-formed placeholders, one for each
place where one stands and in the order of these places. -/
theorem names_are_placed (text : List Char) :
    ∃ found : List (Nat × List Char), found.map Prod.snd = names text ∧
      found.Pairwise (fun a b => a.1 < b.1) ∧
      ∀ place name, (place, name) ∈ found ↔
        WellFormed name ∧ written name <+: text.drop place := by
  refine ⟨placed 0 text, map_placed 0 text, pairwise_placed 0 text, fun place name => ?_⟩
  rw [mem_placed_iff]
  constructor
  · rintro ⟨before, rfl, h⟩
    rwa [Nat.zero_add]
  · intro h
    exact ⟨place, (Nat.zero_add place).symm, h⟩

example : names "\x7b\x7d \x7b a \x7d\x7b{num}\x7b".toList = ["num".toList] := by decide +kernel

end TicketPress.Placeholder
