import TicketPress.Proofs.Bindings
import TicketPress.Proofs.Placeholder.Names

/-!
# Filling in placeholders

`fillAtOnce` fills in all names at once: it goes through the parts of the text,
and no value is read. `fill` goes name after name over a text that has values in
it already, so a value, or braces of the text around one, can make a placeholder
that a later name fills in. This is the only difference: as long as no
placeholder arises in this way, both give the same text, in whatever order the
names are filled in (`fillInOrder_eq_fillAtOnce`). A placeholder without a value
is never lost, whatever the values are: `occurrences_le_fillInOrder`.
-/

namespace TicketPress.Placeholder

open Text

/-! ## Shown parts -/

section Shown

variable {shown : Part → List Char} {name : List Char}

/-- A placeholder that is shown as it is stands in the shown text for each time
it is a part. -/
theorem count_le_occurrences (h : shown (.placeholder name) = written name)
    (list : List Part) :
    list.count (.placeholder name) ≤ occurrences (written name) (list.flatMap shown) := by
  induction list with
  | nil => simp
  | cons part list ih =>
      rw [List.flatMap_cons]
      by_cases hpart : part = .placeholder name
      · rw [hpart, List.count_cons_self, h]
        exact Nat.lt_of_le_of_lt ih
          (occurrences_lt_append_self '\x7b' (name ++ ['\x7d']) (list.flatMap shown))
      · rw [List.count_cons_of_ne hpart]
        exact Nat.le_trans ih (occurrences_le_append (written name) (shown part) _)

/-- If every part shows a placeholder at most once, and only as this part, it
stands in the shown text no more often than it is a part. -/
theorem occurrences_flatMap_le {list : List Part}
    (h : ∀ part ∈ list, ∀ rest, occurrences (written name) (shown part ++ rest) ≤
      (if part = .placeholder name then 1 else 0) + occurrences (written name) rest) :
    occurrences (written name) (list.flatMap shown) ≤ list.count (.placeholder name) := by
  induction list with
  | nil => simp
  | cons part list ih =>
      have hfirst := h part (by simp) (list.flatMap shown)
      have hrest := ih fun other hother => h other (List.mem_cons_of_mem part hother)
      rw [List.flatMap_cons, List.count_cons]
      simp only [beq_iff_eq]
      omega

/-- If a placeholder stands in the shown text only where it is a part, filling
in its name changes what is shown for this part. -/
theorem fillOne_flatMap (h : shown (.placeholder name) = written name) {list : List Part}
    (hcount : occurrences (written name) (list.flatMap shown) ≤
      list.count (.placeholder name)) (value : List Char) :
    fillOne name value (list.flatMap shown) =
      list.flatMap fun part => if part = .placeholder name then value else shown part := by
  induction list with
  | nil => rfl
  | cons part list ih =>
      have hlower := count_le_occurrences h list
      rw [List.flatMap_cons] at hcount ⊢
      rw [List.flatMap_cons]
      by_cases hpart : part = .placeholder name
      · rw [hpart, h, List.count_cons_self] at hcount
        have hself := occurrences_lt_append_self '\x7b' (name ++ ['\x7d']) (list.flatMap shown)
        have hrest : occurrences (written name) (list.flatMap shown) ≤
            list.count (.placeholder name) :=
          Nat.lt_succ_iff.mp (Nat.lt_of_lt_of_le hself hcount)
        rw [hpart, if_pos rfl, h, ← ih hrest]
        exact replaceAll_append_self '\x7b' (name ++ ['\x7d']) value (list.flatMap shown)
      · rw [List.count_cons_of_ne hpart] at hcount
        -- The part in front wins no place: the parts behind it have them all.
        have hfront := Nat.le_trans hcount hlower
        have hrest := Nat.le_trans (occurrences_le_append (written name) (shown part) _) hcount
        rw [if_neg hpart, ← ih hrest]
        exact replaceAll_append_of_occurrences_le hfront value

end Shown

/-! ## One name -/

/-- Filling in one name changes its placeholders and nothing else. -/
theorem fillOne_eq {name : List Char} (h : BraceFree name) (value text : List Char) :
    fillOne name value text =
      (parts text).flatMap fun part => if part = .placeholder name then value else part.text := by
  have hcount : occurrences (written name) ((parts text).flatMap Part.text) ≤
      (parts text).count (.placeholder name) := by
    rw [text_parts, occurrences_written h]
  have hfill := fillOne_flatMap rfl hcount value
  rwa [text_parts] at hfill

/-- Filling in one name takes no placeholder of another one away. -/
theorem occurrences_le_fillOne {name other : List Char} (hname : BraceFree name)
    (hother : BraceFree other) (hne : other ≠ name) (value text : List Char) :
    occurrences (written name) text ≤
      occurrences (written name) (fillOne other value text) := by
  rw [fillOne_eq hother, occurrences_written hname]
  apply count_le_occurrences
  rw [if_neg fun heq => hne (Part.placeholder.inj heq).symm]
  rfl

/-! ## All names, one after the other -/

/-- The text with the placeholders of the given names replaced by their values,
name after name. -/
def fillInOrder (order : List (String × String)) (text : List Char) : List Char :=
  order.foldl (fun text entry => fillOne entry.1.toList entry.2.toList text) text

theorem fill_eq_fillInOrder (values : Bindings) (text : List Char) :
    fill values text = fillInOrder values.entries text := rfl

theorem fillInOrder_concat (order : List (String × String)) (entry : String × String)
    (text : List Char) :
    fillInOrder (order ++ [entry]) text =
      fillOne entry.1.toList entry.2.toList (fillInOrder order text) := by
  rw [fillInOrder, List.foldl_append]
  rfl

/-- No placeholder of a name is lost when other names are filled in. -/
theorem occurrences_le_fillInOrder {name : List Char} (hname : BraceFree name)
    {order : List (String × String)} (hfree : ∀ entry ∈ order, BraceFree entry.1.toList)
    (hne : ∀ entry ∈ order, entry.1.toList ≠ name) (text : List Char) :
    occurrences (written name) text ≤ occurrences (written name) (fillInOrder order text) := by
  induction order generalizing text with
  | nil => exact Nat.le_refl _
  | cons entry order ih =>
      have hfirst := occurrences_le_fillOne hname (hfree entry (by simp)) (hne entry (by simp))
        entry.2.toList text
      refine Nat.le_trans hfirst (ih ?_ ?_ _)
      · exact fun other hother => hfree other (List.mem_cons_of_mem entry hother)
      · exact fun other hother => hne other (List.mem_cons_of_mem entry hother)

/-! ## All names at once -/

/-- What is shown for a part: the value of its name, or the part as it stands in
the text. -/
def Part.filled (entries : List (String × String)) : Part → List Char
  | .char c => [c]
  | .placeholder name =>
    match entries.lookup (String.ofList name) with
    | some value => value.toList
    | none => written name

/-- The text with every placeholder whose name has a value replaced by it. Only
the placeholders of the text itself count, and all else is copied. -/
def fillAtOnce (entries : List (String × String)) (text : List Char) : List Char :=
  (parts text).flatMap (Part.filled entries)

theorem fillAtOnce_nil (text : List Char) : fillAtOnce [] text = text := by
  have hfilled : Part.filled [] = Part.text := by
    funext part
    cases part <;> rfl
  rw [fillAtOnce, hfilled, text_parts]

theorem fillAtOnce_of_perm {order entries : List (String × String)} (hperm : order.Perm entries)
    (h : entries.Pairwise fun a b => a.1 ≠ b.1) (text : List Char) :
    fillAtOnce order text = fillAtOnce entries text := by
  have hfilled : Part.filled order = Part.filled entries := by
    funext part
    cases part with
    | char c => rfl
    | placeholder name => simp only [Part.filled, lookup_eq_of_perm hperm h]
  rw [fillAtOnce, fillAtOnce, hfilled]

/-- One more name changes what is shown for its placeholders. -/
theorem filled_concat {order : List (String × String)} {name value : String}
    (h : order.lookup name = none) (part : Part) :
    Part.filled (order ++ [(name, value)]) part =
      if part = .placeholder name.toList then value.toList else Part.filled order part := by
  cases part with
  | char c => rfl
  | placeholder other =>
      simp only [Part.filled, List.lookup_append, lookup_cons_eq_ite, List.lookup_nil,
        Part.placeholder.injEq]
      by_cases hname : other = name.toList
      · subst hname
        simp [h]
      · have hkey : String.ofList other ≠ name := by
          intro heq
          exact hname (by rw [← heq, String.toList_ofList])
        simp [hname, hkey]

/-! ## Placeholders that arise -/

/-- No value that is filled in makes a placeholder of a later name: with the
names before it filled in, the placeholder of a name stands no more often than
in the text. -/
def NoneArises (order : List (String × String)) (text : List Char) : Prop :=
  ∀ i : Fin order.length, occurrences (written order[i].1.toList)
    (fillAtOnce (order.take i) text) ≤ occurrences (written order[i].1.toList) text

instance (order : List (String × String)) (text : List Char) :
    Decidable (NoneArises order text) :=
  inferInstanceAs (Decidable (∀ _ : Fin order.length, _))

/-- One more name is filled in as if together with those before it, if its
placeholder stands no more often than in the text. -/
theorem fillOne_fillAtOnce {order : List (String × String)} {name : String}
    (hfree : BraceFree name.toList) (hnew : order.lookup name = none) {text : List Char}
    (h : occurrences (written name.toList) (fillAtOnce order text) ≤
      occurrences (written name.toList) text) (value : String) :
    fillOne name.toList value.toList (fillAtOnce order text) =
      fillAtOnce (order ++ [(name, value)]) text := by
  have hshown : Part.filled order (.placeholder name.toList) = written name.toList := by
    simp only [Part.filled, String.ofList_toList, hnew]
  have hfilled : Part.filled (order ++ [(name, value)]) = fun part =>
      if part = .placeholder name.toList then value.toList else Part.filled order part :=
    funext (filled_concat hnew)
  rw [occurrences_written hfree text] at h
  rw [fillAtOnce, fillOne_flatMap hshown h, fillAtOnce, hfilled]

/-- Each name is filled in at once, wherever the text before it came from. -/
theorem fillInOrder_eq_foldl {order : List (String × String)}
    (hfree : ∀ entry ∈ order, BraceFree entry.1.toList) (text : List Char) :
    fillInOrder order text =
      order.foldl (fun text entry => fillAtOnce [entry] text) text := by
  induction order generalizing text with
  | nil => rfl
  | cons entry order ih =>
      have hfirst : fillOne entry.1.toList entry.2.toList (fillAtOnce [] text) =
          fillAtOnce [entry] text :=
        fillOne_fillAtOnce (hfree entry (by simp)) rfl (by rw [fillAtOnce_nil]) entry.2
      rw [fillAtOnce_nil] at hfirst
      rw [List.foldl_cons, ← hfirst,
        ← ih fun other hother => hfree other (List.mem_cons_of_mem entry hother)]
      rfl

/-- A name has no value among the entries before its own. -/
theorem lookup_take_eq_none {order : List (String × String)}
    (hdistinct : order.Pairwise fun a b => a.1 ≠ b.1) {n : Nat} (hn : n < order.length) :
    (order.take n).lookup order[n].1 = none := by
  rw [← List.take_append_drop n order] at hdistinct
  have hlater : order[n] ∈ order.drop n := by
    rw [List.drop_eq_getElem_cons hn]
    exact List.mem_cons_self
  rw [List.lookup_eq_none_iff]
  intro entry hentry
  have hne := (List.pairwise_append.mp hdistinct).2.2 entry hentry order[n] hlater
  simpa using Ne.symm hne

/-- If no placeholder arises, the names can be filled in one after the other. -/
theorem fillInOrder_eq_fillAtOnce {order : List (String × String)} {text : List Char}
    (hfree : ∀ entry ∈ order, BraceFree entry.1.toList)
    (hdistinct : order.Pairwise fun a b => a.1 ≠ b.1) (h : NoneArises order text) :
    fillInOrder order text = fillAtOnce order text := by
  have hbefore : ∀ n ≤ order.length,
      fillInOrder (order.take n) text = fillAtOnce (order.take n) text := by
    intro n hn
    induction n with
    | zero => exact (fillAtOnce_nil text).symm
    | succ n ih =>
        rw [← List.take_append_getElem hn, fillInOrder_concat, ih (Nat.le_of_succ_le hn)]
        exact fillOne_fillAtOnce (hfree _ (List.getElem_mem hn))
          (lookup_take_eq_none hdistinct hn) (h ⟨n, hn⟩) order[n].2
  simpa using hbefore order.length (Nat.le_refl _)

/-- What is shown for a part holds no placeholder but the part itself, if no
value holds an opening brace. -/
theorem occurrences_filled_append_le {order : List (String × String)}
    (hvalues : ∀ entry ∈ order, '\x7b' ∉ entry.2.toList) {name : List Char}
    (hname : BraceFree name) {text : List Char} (htext : .char '\x7b' ∉ parts text) {part : Part}
    (hpart : part ∈ parts text) (rest : List Char) :
    occurrences (written name) (Part.filled order part ++ rest) ≤
      (if part = .placeholder name then 1 else 0) + occurrences (written name) rest := by
  cases part with
  | char c =>
      have hc : '\x7b' ∉ [c] := fun hmem => htext (List.mem_singleton.mp hmem ▸ hpart)
      rw [Part.filled, occurrences_append_of_open_not_mem hc]
      exact Nat.le_add_left _ _
  | placeholder other =>
      rw [Part.filled]
      split
      · rename_i value hlookup
        obtain ⟨before, after, rfl, -⟩ := List.lookup_eq_some_iff.mp hlookup
        rw [occurrences_append_of_open_not_mem (hvalues (String.ofList other, value) (by simp))]
        exact Nat.le_add_left _ _
      · rw [occurrences_written_append hname (braceFree_of_mem_parts hpart)]
        simp

/-- With no opening brace in a value, and none in the text but those of its
placeholders, there is nothing for a placeholder to arise from. -/
theorem noneArises_of_plain {order : List (String × String)} {text : List Char}
    (hfree : ∀ entry ∈ order, BraceFree entry.1.toList)
    (hvalues : ∀ entry ∈ order, '\x7b' ∉ entry.2.toList)
    (htext : .char '\x7b' ∉ parts text) : NoneArises order text := by
  intro i
  have hname : BraceFree order[i].1.toList := hfree _ (List.getElem_mem i.isLt)
  have hbefore : ∀ entry ∈ order.take i, '\x7b' ∉ entry.2.toList :=
    fun entry hentry => hvalues entry (List.mem_of_mem_take hentry)
  rw [occurrences_written hname text]
  exact occurrences_flatMap_le fun part hpart rest =>
    occurrences_filled_append_le hbefore hname htext hpart rest

/-! ## Both together -/

section Both

variable {values : Bindings} {text : List Char} {order : List (String × String)}

/-- Bound names are filled in as if at once in every order in which no
placeholder arises. -/
theorem fillInOrder_of_perm (hfree : ∀ entry ∈ values.entries, BraceFree entry.1.toList)
    (hperm : order.Perm values.entries) (h : NoneArises order text) :
    fillInOrder order text = fillAtOnce values.entries text := by
  have hdistinct : order.Pairwise fun a b => a.1 ≠ b.1 :=
    (hperm.pairwise_iff fun hne => Ne.symm hne).mpr values.distinct
  rw [fillInOrder_eq_fillAtOnce (fun entry hentry => hfree entry (hperm.mem_iff.mp hentry))
    hdistinct h, fillAtOnce_of_perm hperm values.distinct]

/-- Where all opening braces are those of placeholders, every order will do. -/
theorem noneArises_of_perm (hfree : ∀ entry ∈ values.entries, BraceFree entry.1.toList)
    (hvalues : ∀ entry ∈ values.entries, '\x7b' ∉ entry.2.toList)
    (htext : .char '\x7b' ∉ parts text) (hperm : order.Perm values.entries) :
    NoneArises order text :=
  noneArises_of_plain (fun entry hentry => hfree entry (hperm.mem_iff.mp hentry))
    (fun entry hentry => hvalues entry (hperm.mem_iff.mp hentry)) htext

/-- Filling in goes through the names in their order and is at once for each of
them alone. As long as no placeholder arises from a value it is at once for all
of them, and so it is in any other order in which none arises. These are all
orders if no value holds an opening brace and the text has none but those of its
placeholders. -/
theorem fill_eq_fillAtOnce (values : Bindings) (text : List Char)
    (hfree : ∀ entry ∈ values.entries, BraceFree entry.1.toList) :
    fill values text = values.entries.foldl (fun text entry => fillAtOnce [entry] text) text ∧
    (NoneArises values.entries text → fill values text = fillAtOnce values.entries text) ∧
    (∀ order, order.Perm values.entries → NoneArises order text →
      fillInOrder order text = fillAtOnce values.entries text) ∧
    ((∀ entry ∈ values.entries, '\x7b' ∉ entry.2.toList) → .char '\x7b' ∉ parts text →
      ∀ order, order.Perm values.entries →
        NoneArises order text ∧ fillInOrder order text = fillAtOnce values.entries text) := by
  rw [fill_eq_fillInOrder]
  refine ⟨fillInOrder_eq_foldl hfree text, ?_, ?_, ?_⟩
  · exact fillInOrder_of_perm hfree (List.Perm.refl values.entries)
  · exact fun order hperm => fillInOrder_of_perm hfree hperm
  · intro hvalues htext order hperm
    have hnone := noneArises_of_perm hfree hvalues htext hperm
    exact ⟨hnone, fillInOrder_of_perm hfree hperm hnone⟩

end Both

/-- Samples with a value that is the placeholder of a name without a value. -/
def bracedSamples : Bindings := .ofList [("item", "{code}"), ("num", "5")]

/-- A text with a lone brace and a name without a value. -/
def bracedText : List Char := "{num} \x7b{item} {who}".toList

/-- Samples with no opening brace in a value, and a text with none but those of
its placeholders. -/
def plainSamples : Bindings := .ofList [("item", "code\x7d"), ("num", "5")]

def plainText : List Char := "{num}\x7d {item} {who}".toList

/-- The placeholder in the value stays in both orders, and so does the lone
brace. Without such braces nothing has to be known of the order. -/
theorem fill_bracedSamples :
    (∀ entry ∈ bracedSamples.entries, BraceFree entry.1.toList) ∧
    NoneArises bracedSamples.entries bracedText ∧
    NoneArises bracedSamples.entries.reverse bracedText ∧
    fill bracedSamples bracedText = "5 \x7b{code} {who}".toList ∧
    fillInOrder bracedSamples.entries.reverse bracedText = "5 \x7b{code} {who}".toList ∧
    (∀ entry ∈ plainSamples.entries, BraceFree entry.1.toList) ∧
    (∀ entry ∈ plainSamples.entries, '\x7b' ∉ entry.2.toList) ∧ .char '\x7b' ∉ parts plainText ∧
    ∀ order, order.Perm plainSamples.entries →
      fillInOrder order plainText = "5\x7d code\x7d {who}".toList := by
  have hfree : ∀ entry ∈ bracedSamples.entries, BraceFree entry.1.toList := by decide
  have hnone : NoneArises bracedSamples.entries bracedText := by decide
  have hreversed : NoneArises bracedSamples.entries.reverse bracedText := by decide
  have hatOnce : fillAtOnce bracedSamples.entries bracedText =
      "5 \x7b{code} {who}".toList := by decide
  obtain ⟨-, hfill, horder, -⟩ := fill_eq_fillAtOnce bracedSamples bracedText hfree
  have hplain : ∀ entry ∈ plainSamples.entries, BraceFree entry.1.toList := by decide
  have hvalues : ∀ entry ∈ plainSamples.entries, '\x7b' ∉ entry.2.toList := by decide
  have htext : .char '\x7b' ∉ parts plainText := by decide
  have hplainAtOnce : fillAtOnce plainSamples.entries plainText =
      "5\x7d code\x7d {who}".toList := by decide
  obtain ⟨-, -, -, hevery⟩ := fill_eq_fillAtOnce plainSamples plainText hplain
  rw [horder _ (List.reverse_perm _) hreversed, hfill hnone]
  refine ⟨hfree, hnone, hreversed, hatOnce, hatOnce, hplain, hvalues, htext, ?_⟩
  exact fun order hperm => (hevery hvalues htext order hperm).2.trans hplainAtOnce

/-- Samples with a value that is the placeholder of a later name. -/
def chainedSamples : Bindings := .ofList [("a", "{b}"), ("b", "x")]

/-- This value is read again, so the text ends up with the value of the other
name. The placeholder stays if the names are filled in at once, or the later one
first. -/
theorem value_read_by_later_name :
    (∀ entry ∈ chainedSamples.entries, BraceFree entry.1.toList) ∧
    fill chainedSamples "{a}".toList = "x".toList ∧
    fillAtOnce chainedSamples.entries "{a}".toList = "{b}".toList ∧
    fillInOrder chainedSamples.entries.reverse "{a}".toList = "{b}".toList := by
  decide

end TicketPress.Placeholder
