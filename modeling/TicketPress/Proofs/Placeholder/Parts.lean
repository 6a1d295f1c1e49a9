import TicketPress.Placeholder
import TicketPress.Proofs.Text.Counting

/-!
# The parts of a text

A pair of braces with no brace between them is a placeholder, whatever it has
for a name. Two placeholders never share a character, so a text is one list of
placeholders and single characters: `parts`. `text_parts` gives the text back,
and `occurrences_written` says that the placeholder of a name stands in the text
as often as it is a part. What is done to some of the placeholders is done to
parts, and does not depend on which of them come first.
-/

namespace TicketPress.Placeholder

open Text

/-! ## Names without braces -/

/-- A character that is no brace. -/
def notBrace (c : Char) : Bool := c ≠ '\x7b' && c ≠ '\x7d'

/-- A name without braces: the closing brace of its placeholder is the first
brace after the opening one. -/
def BraceFree (name : List Char) : Prop := '\x7b' ∉ name ∧ '\x7d' ∉ name

instance (name : List Char) : Decidable (BraceFree name) :=
  inferInstanceAs (Decidable ('\x7b' ∉ name ∧ '\x7d' ∉ name))

theorem braceFree_iff {name : List Char} :
    BraceFree name ↔ ∀ c ∈ name, notBrace c = true := by
  simp only [BraceFree, notBrace, Bool.and_eq_true, decide_eq_true_eq]
  constructor
  · rintro ⟨hopen, hclose⟩ c hc
    exact ⟨fun heq => hopen (heq ▸ hc), fun heq => hclose (heq ▸ hc)⟩
  · intro h
    exact ⟨fun hopen => (h _ hopen).1 rfl, fun hclose => (h _ hclose).2 rfl⟩

/-- A closing brace after a name without braces is found behind the name. -/
theorem takeWhile_dropWhile_append {name : List Char} (h : BraceFree name)
    (rest : List Char) :
    (name ++ '\x7d' :: rest).takeWhile notBrace = name ∧
      (name ++ '\x7d' :: rest).dropWhile notBrace = '\x7d' :: rest := by
  have hname := braceFree_iff.mp h
  rw [List.takeWhile_append_of_pos hname, List.dropWhile_append_of_pos hname]
  simp [notBrace]

/-- The name of the placeholder at the start of a text. -/
def nameAt? : List Char → Option (List Char)
  | [] => none
  | c :: text =>
    if c = '\x7b' ∧ (text.dropWhile notBrace).head? = some '\x7d' then
      some (text.takeWhile notBrace)
    else none

theorem written_append (name rest : List Char) :
    written name ++ rest = '\x7b' :: (name ++ '\x7d' :: rest) := by
  simp [written]

theorem nameAt?_written {name : List Char} (h : BraceFree name) (rest : List Char) :
    nameAt? (written name ++ rest) = some name := by
  obtain ⟨htake, hdrop⟩ := takeWhile_dropWhile_append h rest
  rw [written_append, nameAt?, htake, hdrop]
  simp

/-- A text starts with a placeholder exactly if the placeholder of a name
without braces is its beginning. -/
theorem nameAt?_eq_some_iff {text name : List Char} :
    nameAt? text = some name ↔ BraceFree name ∧ written name <+: text := by
  constructor
  · intro hname
    cases text with
    | nil => simp [nameAt?] at hname
    | cons c text =>
        rw [nameAt?, Option.ite_none_right_eq_some, Option.some.injEq] at hname
        obtain ⟨⟨rfl, hclose⟩, rfl⟩ := hname
        obtain ⟨rest, hrest⟩ := List.head?_eq_some_iff.mp hclose
        refine ⟨braceFree_iff.mpr fun c hc => List.all_eq_true.mp List.all_takeWhile c hc, rest, ?_⟩
        rw [written_append, ← hrest, List.takeWhile_append_dropWhile]
  · rintro ⟨hfree, rest, rfl⟩
    exact nameAt?_written hfree rest

/-- At most one placeholder starts a text. -/
theorem written_prefix_written_iff {name other : List Char} (hname : BraceFree name)
    (hother : BraceFree other) (rest : List Char) :
    written name <+: written other ++ rest ↔ other = name := by
  rw [← Option.some.injEq, ← nameAt?_written hother rest, nameAt?_eq_some_iff]
  exact ⟨fun hpre => ⟨hname, hpre⟩, And.right⟩

/-! ## Parts -/

/-- A part of a text: a placeholder, or a character outside of placeholders. -/
inductive Part where
  | char (c : Char)
  | placeholder (name : List Char)
  deriving Repr, DecidableEq

/-- The part as it stands in the text. -/
def Part.text : Part → List Char
  | .char c => [c]
  | .placeholder name => written name

/-- `parts` after a placeholder: `skip` counts the characters of it that are
still to be passed over. -/
def partsFrom : (skip : Nat) → List Char → List Part
  | _, [] => []
  | skip + 1, _ :: text => partsFrom skip text
  | 0, c :: text =>
    match nameAt? (c :: text) with
    | some name => .placeholder name :: partsFrom (name.length + 1) text
    | none => .char c :: partsFrom 0 text

/-- The parts of a text in their order. -/
def parts (text : List Char) : List Part := partsFrom 0 text

@[simp] theorem parts_nil : parts [] = [] := rfl

theorem partsFrom_eq_drop (skip : Nat) (text : List Char) :
    partsFrom skip text = parts (text.drop skip) := by
  induction text generalizing skip with
  | nil =>
      rw [List.drop_nil]
      cases skip <;> rfl
  | cons c text ih =>
      cases skip with
      | zero => rfl
      | succ skip => exact ih skip

theorem parts_written {name : List Char} (h : BraceFree name) (rest : List Char) :
    parts (written name ++ rest) = .placeholder name :: parts rest := by
  have hname := nameAt?_written h rest
  have hdrop : (name ++ '\x7d' :: rest).drop (name.length + 1) = rest := by
    rw [List.drop_append]
    simp
  rw [written_append] at hname ⊢
  rw [parts, partsFrom, hname]
  simp only [partsFrom_eq_drop, hdrop]

theorem parts_cons {c : Char} {text : List Char} (h : nameAt? (c :: text) = none) :
    parts (c :: text) = .char c :: parts text := by
  rw [parts, partsFrom, h]
  rfl

/-- A text is taken apart at its start: there stands a placeholder or a
character outside of placeholders. -/
theorem parts_induction {motive : List Char → Prop} (nil : motive [])
    (placeholder : ∀ name rest, BraceFree name → motive rest → motive (written name ++ rest))
    (char : ∀ c text, nameAt? (c :: text) = none → motive text → motive (c :: text))
    (text : List Char) : motive text := by
  induction h : text.length using Nat.strongRecOn generalizing text with
  | ind n ih =>
      subst h
      match text with
      | [] => exact nil
      | c :: text =>
          cases hname : nameAt? (c :: text) with
          | none => exact char c text hname (ih text.length (by simp) text rfl)
          | some name =>
              obtain ⟨hfree, rest, hrest⟩ := nameAt?_eq_some_iff.mp hname
              rw [← hrest]
              refine placeholder name rest hfree (ih rest.length ?_ rest rfl)
              rw [← hrest, written_append]
              simp only [List.length_cons, List.length_append]
              omega

/-- The parts of a text give it back. -/
theorem text_parts (text : List Char) : (parts text).flatMap Part.text = text := by
  induction text using parts_induction with
  | nil => rfl
  | placeholder name rest hfree ih => rw [parts_written hfree, List.flatMap_cons, ih]; rfl
  | char c text hnone ih => rw [parts_cons hnone, List.flatMap_cons, ih]; rfl

/-- A placeholder among the parts has a name without braces. -/
theorem braceFree_of_mem_parts {name text : List Char}
    (h : .placeholder name ∈ parts text) : BraceFree name := by
  induction text using parts_induction with
  | nil => simp at h
  | placeholder other rest hfree ih =>
      rw [parts_written hfree, List.mem_cons, Part.placeholder.injEq] at h
      rcases h with rfl | hrest
      · exact hfree
      · exact ih hrest
  | char c text hnone ih =>
      rw [parts_cons hnone, List.mem_cons] at h
      exact ih (h.resolve_left (by simp))

/-! ## Counting placeholders -/

/-- Text without an opening brace wins no placeholder. -/
theorem occurrences_append_of_open_not_mem {before : List Char} (h : '\x7b' ∉ before)
    (name rest : List Char) :
    occurrences (written name) (before ++ rest) = occurrences (written name) rest :=
  occurrences_append_of_not_mem h (name ++ ['\x7d']) rest

/-- Behind the opening brace of a placeholder none starts before its end. -/
theorem occurrences_written_append {name other : List Char} (hname : BraceFree name)
    (hother : BraceFree other) (rest : List Char) :
    occurrences (written name) (written other ++ rest) =
      (if other = name then 1 else 0) + occurrences (written name) rest := by
  have hstart := written_prefix_written_iff hname hother rest
  have hpass : '\x7b' ∉ other ++ ['\x7d'] := by simp [hother.1]
  have hrest := occurrences_append_of_open_not_mem hpass name rest
  rw [← List.append_cons] at hrest
  rw [written_append] at hstart ⊢
  simp only [occurrences, hstart, hrest]

/-- The placeholder of a name stands in a text as often as it is a part. -/
theorem occurrences_written {name : List Char} (h : BraceFree name) (text : List Char) :
    occurrences (written name) text = (parts text).count (.placeholder name) := by
  induction text using parts_induction with
  | nil => rfl
  | placeholder other rest hfree ih =>
      rw [occurrences_written_append h hfree, parts_written hfree, List.count_cons, ih,
        Nat.add_comm]
      simp
  | char c text hnone ih =>
      have hstart : ¬ written name <+: c :: text := by
        intro hpre
        rw [nameAt?_eq_some_iff.mpr ⟨h, hpre⟩] at hnone
        exact absurd hnone (by simp)
      rw [occurrences_cons_of_not_start hstart, parts_cons hnone,
        List.count_cons_of_ne (by simp), ih]

end TicketPress.Placeholder
