import TicketPress.Proofs.Layout.NormalForm

/-!
# Writing down what was read

What is recovered from a script can be written as a script of its own, whatever
the first one looked like. Reading that one gives the same contents in the same
order, in particular the same heights; only spacings without height are missing,
because they leave no line. The style of images and spacings may differ, since
a script does not carry it.
-/

namespace TicketPress

/-- The contents of items that leave a line: all but the spacings of no height. -/
def writtenContents (list : List Item) : List Content :=
  (list.map Item.content).filter fun content => content ≠ .spacing 0

theorem writtenContents_append (a b : List Item) :
    writtenContents (a ++ b) = writtenContents a ++ writtenContents b := by
  rw [writtenContents, List.map_append, List.filter_append]
  rfl

/-! ## Contents as they are recovered -/

/-- Content as a script gives it: an image has no picture, and its file has a
name. -/
def Content.IsRead : Content → Prop
  | .image picture fileName => picture = "" ∧ ∃ name, name ≠ "" ∧ fileName = some name
  | _ => True

theorem isRead_of_mem_recoverItems {text : List Char} {item : Item}
    (h : item ∈ recoverItems text) : item.content.IsRead := by
  rw [recoverItems_eq] at h
  obtain ⟨i, hi, style, hstyle⟩ := exists_of_mem_gather h
  have hsafe : i.Safe := safe_of_mem_readings hi
  obtain ⟨content, hcontent, rfl⟩ := Option.map_eq_some_iff.mp hstyle
  cases i with
  | loadImage file =>
      obtain rfl := Option.some.inj hcontent
      exact ⟨rfl, String.ofList file, by simpa using hsafe.named file rfl, rfl⟩
  | feed dots | retract dots =>
      obtain rfl := Option.some.inj hcontent
      trivial
  | text literal size =>
      obtain rfl := Option.some.inj hcontent
      trivial
  | _ => simp [Instruction.content?] at hcontent

/-! ## Contents that are kept -/

/-- Of an item as it was read a script keeps the content, if it is written. -/
theorem map_content_normal? {item : Item} (h : item.content.IsRead) (before : List Item) :
    (item.normal? before).toList.map Item.content = writtenContents [item] := by
  obtain ⟨content, align, bold, size⟩ := item
  cases content with
  | text content => rfl
  | image picture fileName =>
      obtain ⟨rfl, name, hname, rfl⟩ := h
      simp [Item.normal?, writtenContents, loadName_some hname]
  | spacing height =>
      by_cases hzero : height = 0
      · simp [Item.normal?, writtenContents, hzero]
      · simp [Item.normal?, writtenContents, hzero]

theorem map_content_normalFrom {before rest : List Item}
    (h : ∀ item ∈ rest, item.content.IsRead) :
    (normalFrom before rest).map Item.content = writtenContents rest := by
  induction rest generalizing before with
  | nil => rfl
  | cons item rest ih =>
      have hrest : ∀ other ∈ rest, other.content.IsRead :=
        fun other hother => h other (by simp [hother])
      rw [normalFrom, List.map_append, map_content_normal? (h item (by simp)), ih hrest,
        ← writtenContents_append, List.singleton_append]

/-- What is read from the script that is written for what was read has the same
contents, spacings of no height aside. -/
theorem map_content_reread (text : List Char) (fresh : Nat → String) :
    (recoverItems (scriptText (script ((recover text).layout fresh)))).map Item.content =
      writtenContents (recoverItems text) := by
  have hitems : items ((recover text).layout fresh) = recoverItems text :=
    items_nameAll fresh (recoverItems text)
  have hrepresentable : ∀ item ∈ items ((recover text).layout fresh), item.Representable := by
    rw [hitems]
    exact fun item hitem => representable_of_mem_recoverItems hitem
  rw [recoverItems_of_representable hrepresentable, hitems]
  exact map_content_normalFrom fun item hitem => isRead_of_mem_recoverItems hitem

end TicketPress
