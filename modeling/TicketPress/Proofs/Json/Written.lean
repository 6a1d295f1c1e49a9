import TicketPress.Proofs.Json.Number
import TicketPress.Proofs.Json.Text

/-!
# Reading back documents

A document may be laid out with blanks wherever two of its parts meet.
`Written` says which texts lay out a value, whatever blanks were chosen, so
the document on one line and the document spread over lines are cases of it.
All of them are read as the same draft: `Written.readValue` by induction on the
layout, with the fuel of the reader measured by the length of the text, and
`decode_write` and `decode_writePretty` for whole documents.
-/

namespace TicketPress.Json

/-! ## Blanks -/

/-- A text of blanks. -/
def Blank (text : List Char) : Prop := skipSpace text = []

theorem blank_nil : Blank [] := rfl

theorem Blank.skipSpace_append {blank : List Char} (h : Blank blank) (rest : List Char) :
    skipSpace (blank ++ rest) = skipSpace rest := by
  rw [Json.skipSpace_append, h, List.isEmpty_nil, if_pos rfl]

theorem skipSpace_cons {c : Char} (h : isSpace c = false) (rest : List Char) :
    skipSpace (c :: rest) = c :: rest := by
  simp [skipSpace, h]

theorem skipSpace_skipSpace (text : List Char) : skipSpace (skipSpace text) = skipSpace text := by
  induction text with
  | nil => rfl
  | cons c text ih =>
    cases hc : isSpace c with
    | true => simpa [skipSpace, hc] using ih
    | false => rw [skipSpace_cons hc, skipSpace_cons hc]

/-- A value is read the same if the blanks before it are left out. -/
theorem readValue_skipSpace (fuel : Nat) (text : List Char) :
    readValue fuel (skipSpace text) = readValue fuel text := by
  cases fuel with
  | zero => rfl
  | succ fuel => simp only [readValue, skipSpace_skipSpace]

theorem readItems_skipSpace (fuel : Nat) (text : List Char) :
    readItems fuel (skipSpace text) = readItems fuel text := by
  cases fuel with
  | zero => rfl
  | succ fuel => simp only [readItems, readValue_skipSpace]

theorem readMembers_skipSpace (fuel : Nat) (text : List Char) :
    readMembers fuel (skipSpace text) = readMembers fuel text := by
  cases fuel with
  | zero => rfl
  | succ fuel => simp only [readMembers, readValue_skipSpace]

/-! ## Layouts of a value -/

mutual

/-- The texts that lay out a value: blanks may stand before and after every
item and member and before the value of a member. -/
inductive Written : Value → List Char → Prop
  | null : Written .null "null".toList
  | boolean (value : Bool) : Written (.boolean value) (if value then "true" else "false").toList
  | number {n : Number} (legible : n.Legible) : Written (.number n) n.write
  | text (t : String) : Written (.text t) (writeText t.toList)
  | emptyArray : Written (.array []) ['[', ']']
  | array {items : List Value} {inner blank : List Char} (h : WrittenItems items inner)
      (hblank : Blank blank) : Written (.array items) ('[' :: (inner ++ blank ++ [']']))
  | emptyObject : Written (.object []) ['\x7b', '\x7d']
  | object {members : List (String × Value)} {inner blank : List Char}
      (h : WrittenMembers members inner) (hblank : Blank blank) :
      Written (.object members) ('\x7b' :: (inner ++ blank ++ ['\x7d']))

/-- The texts that lay out the items of an array that has some. -/
inductive WrittenItems : List Value → List Char → Prop
  | last {value : Value} {blank text : List Char} (hblank : Blank blank)
      (h : Written value text) : WrittenItems [value] (blank ++ text)
  | more {value : Value} {items : List Value} {blank text inner : List Char}
      (hblank : Blank blank) (h : Written value text) (hrest : WrittenItems items inner) :
      WrittenItems (value :: items) (blank ++ text ++ ',' :: inner)

/-- The texts that lay out the members of an object that has some. -/
inductive WrittenMembers : List (String × Value) → List Char → Prop
  | last {name : String} {value : Value} {before blank text : List Char} (hbefore : Blank before)
      (hblank : Blank blank) (h : Written value text) :
      WrittenMembers [(name, value)] (before ++ writeText name.toList ++ ':' :: (blank ++ text))
  | more {name : String} {value : Value} {members : List (String × Value)}
      {before blank text inner : List Char} (hbefore : Blank before) (hblank : Blank blank)
      (h : Written value text) (hrest : WrittenMembers members inner) :
      WrittenMembers ((name, value) :: members)
        (before ++ writeText name.toList ++ ':' :: (blank ++ text) ++ ',' :: inner)

end

/-! ## What a layout is read as -/

mutual

/-- What a value is read as, however it is laid out. -/
def Value.draft : Value → Draft
  | .null => .null
  | .boolean value => .boolean value
  | .number n => n.draft
  | .text t => .text (.ok t) (.ok ())
  | .array items => .array (draftItems items)
  | .object members => .object (draftMembers members)

/-- What the items of an array are read as. -/
def draftItems : List Value → Items
  | [] => .closed
  | item :: items => .item item.draft (draftItems items)

/-- What the members of an object are read as. -/
def draftMembers : List (String × Value) → Members
  | [] => .closed
  | (name, value) :: members =>
    .member (.text (.ok name) (.ok ())) value.draft (draftMembers members)

end

@[simp] theorem draft_array (items : List Value) :
    (Value.array items).draft = .array (draftItems items) := rfl

@[simp] theorem draft_object (members : List (String × Value)) :
    (Value.object members).draft = .object (draftMembers members) := rfl

theorem readValue_writeText (fuel : Nat) (hfuel : 0 < fuel) (t : String) (rest : List Char) :
    readValue fuel (writeText t.toList ++ rest) = (.text (.ok t) (.ok ()), some rest) := by
  obtain ⟨fuel, rfl⟩ : ∃ smaller, fuel = smaller + 1 := ⟨fuel - 1, by omega⟩
  have hread := readText_escaped t rest
  simp only [writeText, List.cons_append, List.append_assoc, List.nil_append, readValue,
    skipSpace_cons (show isSpace '"' = false by decide), hread]

/-- What comes first in a layout closes no array. -/
theorem Written.exists_cons {value : Value} {text : List Char} (h : Written value text) :
    ∃ c body, skipSpace text = c :: body ∧ c ≠ ']' := by
  cases h with
  | null => exact ⟨'n', _, rfl, by decide⟩
  | boolean value =>
    cases value
    · exact ⟨'f', _, rfl, by decide⟩
    · exact ⟨'t', _, rfl, by decide⟩
  | number legible =>
    obtain ⟨numeral, left, -, hread, -⟩ := legible.exists_numeral
    obtain ⟨c, body, hbody, hc⟩ := exists_cons_of_readNumeral hread
    exact ⟨c, body, hbody, ne_of_startsNumeral hc (by decide : [']'].all _ = true) _ (by simp)⟩
  | text t => exact ⟨'"', _, skipSpace_cons (by decide) _, by decide⟩
  | emptyArray => exact ⟨'[', _, rfl, by decide⟩
  | array h hblank => exact ⟨'[', _, skipSpace_cons (by decide) _, by decide⟩
  | emptyObject => exact ⟨'\x7b', _, rfl, by decide⟩
  | object h hblank => exact ⟨'\x7b', _, skipSpace_cons (by decide) _, by decide⟩

theorem Written.length_pos {value : Value} {text : List Char} (h : Written value text) :
    0 < text.length := by
  obtain ⟨c, body, hbody, -⟩ := h.exists_cons
  cases text with
  | nil => cases hbody
  | cons c text => exact Nat.succ_pos _

theorem WrittenItems.exists_cons {items : List Value} {inner : List Char}
    (h : WrittenItems items inner) (rest : List Char) :
    ∃ c body, skipSpace (inner ++ rest) = c :: body ∧ c ≠ ']' := by
  obtain ⟨value, before, text, left, rfl, hbefore, hvalue⟩ :
      ∃ value before text left, inner = before ++ (text ++ left) ∧ Blank before ∧
        Written value text := by
    cases h with
    | last hbefore hvalue => exact ⟨_, _, _, [], by simp, hbefore, hvalue⟩
    | more hbefore hvalue hmore => exact ⟨_, _, _, _, by simp; rfl, hbefore, hvalue⟩
  obtain ⟨c, body, hbody, hc⟩ := hvalue.exists_cons
  refine ⟨c, body ++ (left ++ rest), ?_, hc⟩
  rw [List.append_assoc, hbefore.skipSpace_append, List.append_assoc, skipSpace_append, hbody]
  rfl

theorem WrittenMembers.exists_cons {members : List (String × Value)} {inner : List Char}
    (h : WrittenMembers members inner) (rest : List Char) :
    ∃ body, skipSpace (inner ++ rest) = '"' :: body := by
  cases h with
  | last hbefore hblank hvalue =>
    simp only [List.append_assoc, hbefore.skipSpace_append, writeText, List.cons_append]
    exact ⟨_, skipSpace_cons (by decide) _⟩
  | more hbefore hblank hvalue hmore =>
    simp only [List.append_assoc, hbefore.skipSpace_append, writeText, List.cons_append]
    exact ⟨_, skipSpace_cons (by decide) _⟩

/-! ### The readers at the start of their part -/

theorem Blank.readValue {blank : List Char} (h : Blank blank) (fuel : Nat) (rest : List Char) :
    readValue fuel (blank ++ rest) = Json.readValue fuel rest := by
  rw [← readValue_skipSpace, h.skipSpace_append, readValue_skipSpace]

theorem Blank.endsNumeral {blank rest : List Char} (h : Blank blank) (hrest : EndsNumeral rest) :
    EndsNumeral (blank ++ rest) := by
  cases blank with
  | nil => exact hrest
  | cons c blank =>
    cases hc : isSpace c with
    | false => simp [Blank, skipSpace_cons hc] at h
    | true =>
      simp only [isSpace, Bool.or_eq_true, beq_iff_eq] at hc
      obtain ((rfl | rfl) | rfl) | rfl := hc <;> exact ⟨by decide, by decide, by decide, by decide⟩

theorem endsNumeral_of_mem {c : Char} (h : c ∈ [',', ']', '\x7d']) (rest : List Char) :
    EndsNumeral (c :: rest) := by
  simp only [List.mem_cons, List.not_mem_nil, or_false] at h
  obtain rfl | rfl | rfl := h <;> exact ⟨by decide, by decide, by decide, by decide⟩

theorem readValue_array {fuel : Nat} {inner : List Char} {items : Items}
    {left : Option (List Char)} (hfirst : ∃ c body, skipSpace inner = c :: body ∧ c ≠ ']')
    (h : readItems fuel inner = (items, left)) :
    readValue (fuel + 1) ('[' :: inner) = (.array items, left) := by
  obtain ⟨c, body, hbody, hc⟩ := hfirst
  rw [← readItems_skipSpace, hbody] at h
  simp [readValue, skipSpace_cons (show isSpace '[' = false by decide), hbody, hc, h]

theorem readValue_object {fuel : Nat} {inner : List Char} {members : Members}
    {left : Option (List Char)} (hfirst : ∃ body, skipSpace inner = '"' :: body)
    (h : readMembers fuel inner = (members, left)) :
    readValue (fuel + 1) ('\x7b' :: inner) = (.object members, left) := by
  obtain ⟨body, hbody⟩ := hfirst
  rw [← readMembers_skipSpace, hbody] at h
  simp [readValue, skipSpace_cons (show isSpace '\x7b' = false by decide), hbody, h]

section Steps

variable {fuel : Nat} {text left rest : List Char} {value : Draft}

theorem readItems_of_bracket (hvalue : readValue fuel text = (value, some left))
    (hleft : skipSpace left = ']' :: rest) :
    readItems (fuel + 1) text = (.item value .closed, some rest) := by
  simp only [readItems, hvalue, hleft]

theorem readItems_of_comma {items : Items} {stop : Option (List Char)}
    (hvalue : readValue fuel text = (value, some left)) (hleft : skipSpace left = ',' :: rest)
    (hitems : readItems fuel rest = (items, stop)) :
    readItems (fuel + 1) text = (.item value items, stop) := by
  simp only [readItems, hvalue, hleft, hitems]

variable {asked : Except Cause String} {skipped : Except Cause Unit} {colon after : List Char}
  (hkey : readValue fuel text = (.text asked skipped, some colon))
  (hcolon : skipSpace colon = ':' :: after) (hvalue : readValue fuel after = (value, some left))
include hkey hcolon hvalue

theorem readMembers_of_brace (hleft : skipSpace left = '\x7d' :: rest) :
    readMembers (fuel + 1) text = (.member (.text asked skipped) value .closed, some rest) := by
  simp only [readMembers, hkey, hcolon, hvalue, hleft]

theorem readMembers_of_comma {members : Members} {stop : Option (List Char)}
    (hleft : skipSpace left = ',' :: rest) (hmembers : readMembers fuel rest = (members, stop)) :
    readMembers (fuel + 1) text = (.member (.text asked skipped) value members, stop) := by
  simp only [readMembers, hkey, hcolon, hvalue, hleft, hmembers]

end Steps

/-! ### The induction on the layout

A list of items hands the fuel it has less one to its first item and to the
rest. An item is a character or more, and so is the comma after it: that pays
for the one. -/

mutual

theorem Written.readValue {value : Value} {text : List Char} (h : Written value text)
    {rest : List Char} (hrest : EndsNumeral rest) (fuel : Nat) (hfuel : 2 * text.length ≤ fuel) :
    ∃ left, Json.readValue fuel (text ++ rest) = (value.draft, some left) ∧
      skipSpace left = skipSpace rest := by
  have hlength := h.length_pos
  obtain ⟨fuel, rfl⟩ : ∃ smaller, fuel = smaller + 1 := ⟨fuel - 1, by omega⟩
  cases h with
  | null => exact ⟨rest, rfl, rfl⟩
  | boolean value =>
    cases value
    · exact ⟨rest, rfl, rfl⟩
    · exact ⟨rest, rfl, rfl⟩
  | number legible =>
    -- A numeral alone may leave blanks behind it; everything else leaves just the rest.
    exact legible.readValue hrest fuel
  | text t => exact ⟨rest, readValue_writeText _ (Nat.succ_pos fuel) t rest, rfl⟩
  | emptyArray => exact ⟨rest, rfl, rfl⟩
  | @array items inner blank hitems hblank =>
    simp only [List.length_cons, List.length_append] at hfuel
    have hread := hitems.readItems hblank rest fuel (by omega)
    have hfirst := hitems.exists_cons (blank ++ ']' :: rest)
    refine ⟨rest, ?_, rfl⟩
    simp only [List.cons_append, List.append_assoc, List.nil_append] at hread hfirst ⊢
    exact readValue_array hfirst hread
  | emptyObject => exact ⟨rest, rfl, rfl⟩
  | @object members inner blank hmembers hblank =>
    simp only [List.length_cons, List.length_append] at hfuel
    have hread := hmembers.readMembers hblank rest fuel (by omega)
    have hfirst := hmembers.exists_cons (blank ++ '\x7d' :: rest)
    refine ⟨rest, ?_, rfl⟩
    simp only [List.cons_append, List.append_assoc, List.nil_append] at hread hfirst ⊢
    exact readValue_object hfirst hread

theorem WrittenItems.readItems {items : List Value} {inner blank : List Char}
    (h : WrittenItems items inner) (hblank : Blank blank) (rest : List Char) (fuel : Nat)
    (hfuel : 2 * inner.length + 1 ≤ fuel) :
    Json.readItems fuel (inner ++ blank ++ ']' :: rest) = (draftItems items, some rest) := by
  obtain ⟨fuel, rfl⟩ : ∃ smaller, fuel = smaller + 1 := ⟨fuel - 1, by omega⟩
  cases h with
  | @last value before text hbefore hvalue =>
    simp only [List.length_append] at hfuel
    have hends := hblank.endsNumeral (endsNumeral_of_mem (c := ']') (by decide) rest)
    obtain ⟨left, hread, hleft⟩ := hvalue.readValue hends fuel (by omega)
    rw [← hbefore.readValue] at hread
    rw [hblank.skipSpace_append, skipSpace_cons (by decide)] at hleft
    simp only [List.append_assoc]
    exact readItems_of_bracket hread hleft
  | @more value items before text inner hbefore hvalue hmore =>
    simp only [List.length_append, List.length_cons] at hfuel
    have hends := endsNumeral_of_mem (c := ',') (by decide) (inner ++ blank ++ ']' :: rest)
    obtain ⟨left, hread, hleft⟩ := hvalue.readValue hends fuel (by omega)
    have hitems := hmore.readItems hblank rest fuel (by omega)
    rw [← hbefore.readValue] at hread
    rw [skipSpace_cons (by decide)] at hleft
    simp only [List.append_assoc, List.cons_append] at hread hleft hitems ⊢
    exact readItems_of_comma hread hleft hitems

theorem WrittenMembers.readMembers {members : List (String × Value)} {inner blank : List Char}
    (h : WrittenMembers members inner) (hblank : Blank blank) (rest : List Char) (fuel : Nat)
    (hfuel : 2 * inner.length + 1 ≤ fuel) :
    Json.readMembers fuel (inner ++ blank ++ '\x7d' :: rest) =
      (draftMembers members, some rest) := by
  obtain ⟨fuel, rfl⟩ : ∃ smaller, fuel = smaller + 1 := ⟨fuel - 1, by omega⟩
  cases h with
  | @last name value before space text hbefore hspace hvalue =>
    simp only [List.length_append, List.length_cons] at hfuel
    have hkey := readValue_writeText fuel (by omega) name
      (':' :: (space ++ (text ++ (blank ++ '\x7d' :: rest))))
    have hends := hblank.endsNumeral (endsNumeral_of_mem (c := '\x7d') (by decide) rest)
    obtain ⟨left, hread, hleft⟩ := hvalue.readValue hends fuel (by omega)
    rw [← hbefore.readValue] at hkey
    rw [← hspace.readValue] at hread
    rw [hblank.skipSpace_append, skipSpace_cons (by decide)] at hleft
    simp only [List.append_assoc, List.cons_append]
    exact readMembers_of_brace hkey (skipSpace_cons (by decide) _) hread hleft
  | @more name value members before space text inner hbefore hspace hvalue hmore =>
    simp only [List.length_append, List.length_cons] at hfuel
    have hkey := readValue_writeText fuel (by omega) name
      (':' :: (space ++ (text ++ ',' :: (inner ++ (blank ++ '\x7d' :: rest)))))
    have hends := endsNumeral_of_mem (c := ',') (by decide) (inner ++ blank ++ '\x7d' :: rest)
    obtain ⟨left, hread, hleft⟩ := hvalue.readValue hends fuel (by omega)
    have hmembers := hmore.readMembers hblank rest fuel (by omega)
    rw [← hbefore.readValue] at hkey
    rw [← hspace.readValue] at hread
    rw [skipSpace_cons (by decide)] at hleft
    simp only [List.append_assoc, List.cons_append] at hread hleft hmembers ⊢
    exact readMembers_of_comma hkey (skipSpace_cons (by decide) _) hread hleft hmembers

end

/-- A text that lays out a value is read as the value, blanks behind it or
not. -/
theorem Written.document_read {value : Value} {text blank : List Char} (h : Written value text)
    (hblank : Blank blank) :
    Document.read (String.ofList (text ++ blank)) = ⟨value.draft, true⟩ := by
  have hends : EndsNumeral (blank ++ []) := hblank.endsNumeral trivial
  rw [List.append_nil] at hends
  have hfuel : 2 * text.length ≤ 2 * (text ++ blank).length + 2 := by
    rw [List.length_append]
    omega
  obtain ⟨left, hread, hleft⟩ := h.readValue hends _ hfuel
  have hleft : skipSpace left = [] := hleft.trans hblank
  simp only [Document.read, String.toList_ofList, hread, hleft, decide_true]

/-- Whoever asks such a text for something asks the value. -/
theorem Written.decode_append {value : Value} {text blank : List Char} (h : Written value text)
    (hblank : Blank blank) {α : Type} (ask : Nat → Draft → Answer α) :
    decode ask (String.ofList (text ++ blank)) = ask maxDepth value.draft := by
  rw [decode, h.document_read hblank]
  cases ask maxDepth value.draft <;> rfl

theorem Written.decode_eq {value : Value} {text : List Char} (h : Written value text) {α : Type}
    (ask : Nat → Draft → Answer α) :
    decode ask (String.ofList text) = ask maxDepth value.draft := by
  have hread := h.decode_append blank_nil ask
  rwa [List.append_nil] at hread

/-! ## Values whose numbers are numerals -/

mutual

/-- Whether all numbers of a value are written as numerals. -/
def Value.Legible : Value → Prop
  | .number n => n.Legible
  | .array items => LegibleItems items
  | .object members => LegibleMembers members
  | _ => True

/-- Whether all numbers of the items are written as numerals. -/
def LegibleItems : List Value → Prop
  | [] => True
  | item :: items => item.Legible ∧ LegibleItems items

/-- Whether all numbers of the members are written as numerals. -/
def LegibleMembers : List (String × Value) → Prop
  | [] => True
  | (_, value) :: members => value.Legible ∧ LegibleMembers members

end

/-! ## Documents on one line -/

mutual

theorem Value.written_compact :
    (value : Value) → value.Legible → Written value value.compact
  | .null, _ => .null
  | .boolean value, _ => .boolean value
  | .number _, h => .number h
  | .text t, _ => .text t
  | .array [], _ => .emptyArray
  | .array (item :: items), h => by
    have hitems := writtenItems_compactItems (item :: items) h (by simp)
    have hwritten := Written.array hitems blank_nil
    rwa [List.append_nil] at hwritten
  | .object [], _ => .emptyObject
  | .object (member :: members), h => by
    have hmembers := writtenMembers_compactMembers (member :: members) h (by simp)
    have hwritten := Written.object hmembers blank_nil
    rwa [List.append_nil] at hwritten

theorem writtenItems_compactItems :
    (items : List Value) → LegibleItems items → items ≠ [] →
      WrittenItems items (compactItems items)
  | [], _, hsome => absurd rfl hsome
  | [item], h, _ => .last blank_nil (item.written_compact h.1)
  | item :: next :: items, h, _ =>
    .more blank_nil (item.written_compact h.1)
      (writtenItems_compactItems (next :: items) h.2 (by simp))

theorem writtenMembers_compactMembers :
    (members : List (String × Value)) → LegibleMembers members → members ≠ [] →
      WrittenMembers members (compactMembers members)
  | [], _, hsome => absurd rfl hsome
  | [(_, value)], h, _ =>
    .last blank_nil blank_nil (value.written_compact h.1)
  | (name, value) :: next :: members, h, _ => by
    have hrest := writtenMembers_compactMembers (next :: members) h.2 (by simp)
    have hwritten : WrittenMembers ((name, value) :: next :: members) _ :=
      .more blank_nil blank_nil (value.written_compact h.1) hrest
    simpa [compactMembers] using hwritten

end

/-- Whoever asks a document on one line asks the value it was written from. -/
theorem decode_write {value : Value} (h : value.Legible) {α : Type}
    (ask : Nat → Draft → Answer α) :
    decode ask value.write = ask maxDepth value.draft :=
  (value.written_compact h).decode_eq ask

/-! ## Documents spread over lines -/

theorem blank_newLine (level : Nat) : Blank (newLine level) := by
  simp [Blank, skipSpace, newLine, isSpace]

mutual

theorem Value.written_prettyAt (level : Nat) :
    (value : Value) → value.Legible → Written value (value.prettyAt level)
  | .null, _ => .null
  | .boolean value, _ => .boolean value
  | .number _, h => .number h
  | .text t, _ => .text t
  | .array [], _ => .emptyArray
  | .array (item :: items), h =>
    .array (writtenItems_prettyItems (level + 1) (item :: items) h (by simp))
      (blank_newLine level)
  | .object [], _ => .emptyObject
  | .object (member :: members), h =>
    .object (writtenMembers_prettyMembers (level + 1) (member :: members) h (by simp))
      (blank_newLine level)

theorem writtenItems_prettyItems (level : Nat) :
    (items : List Value) → LegibleItems items → items ≠ [] →
      WrittenItems items (prettyItems level items)
  | [], _, hsome => absurd rfl hsome
  | [item], h, _ => .last (blank_newLine level) (item.written_prettyAt level h.1)
  | item :: next :: items, h, _ =>
    .more (blank_newLine level) (item.written_prettyAt level h.1)
      (writtenItems_prettyItems level (next :: items) h.2 (by simp))

theorem writtenMembers_prettyMembers (level : Nat) :
    (members : List (String × Value)) → LegibleMembers members → members ≠ [] →
      WrittenMembers members (prettyMembers level members)
  | [], _, hsome => absurd rfl hsome
  | [(_, value)], h, _ =>
    .last (blank_newLine level) (show Blank [' '] from rfl) (value.written_prettyAt level h.1)
  | (_, value) :: next :: members, h, _ =>
    .more (blank_newLine level) (show Blank [' '] from rfl) (value.written_prettyAt level h.1)
      (writtenMembers_prettyMembers level (next :: members) h.2 (by simp))

end

/-- Whoever asks a document spread over lines asks the value it was written
from. -/
theorem decode_writePretty {value : Value} (h : value.Legible) {α : Type}
    (ask : Nat → Draft → Answer α) :
    decode ask value.writePretty = ask maxDepth value.draft :=
  (value.written_prettyAt 0 h).decode_eq ask

/-- The same with a line end behind the document. -/
theorem decode_writePretty_line {value : Value} (h : value.Legible) {α : Type}
    (ask : Nat → Draft → Answer α) :
    decode ask (value.writePretty ++ "\n") = ask maxDepth value.draft := by
  have hread := (value.written_prettyAt 0 h).decode_append (show Blank ['\n'] from rfl) ask
  rwa [String.ofList_append] at hread

end TicketPress.Json
