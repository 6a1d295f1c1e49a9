import TicketPress.Proofs.CommandLine.LineEnds
import TicketPress.Proofs.Layout.NormalForm

/-!
# Canonical scripts

A check compares a script with the one that would be written for what is
recovered from it. The scripts it accepts are just the written ones, line ends
and blanks at the end aside, of layouts that have an element, no spacing
without height, and only representable items. A spacing without height is
recovered from a feed by nothing, but it is never written; so a script with
such a feed is not its own canonical form.
-/

namespace TicketPress

/-! ## Layouts and their normal form -/

/-- A layout that a check accepts the script of. -/
structure CanonicalLayout (layout : List Element) : Prop where
  ne_nil : layout ≠ []
  height : ∀ item ∈ items layout, item.content ≠ .spacing 0
  representable : ∀ item ∈ items layout, item.Representable

/-- An item that leaves a line has a normal form, which is written in the same
instructions. -/
theorem Item.exists_normal?_eq_some {item : Item} (h : item.content ≠ .spacing 0)
    (before : List Item) : ∃ kept, item.normal? before = some kept ∧
      ∀ printer, kept.instructions printer = item.instructions printer := by
  obtain ⟨content, align, bold, size⟩ := item
  cases content with
  | text content => exact ⟨_, rfl, fun _ => rfl⟩
  | image picture fileName =>
      refine ⟨_, rfl, fun printer => ?_⟩
      simp only [instructions, Content.isOverlay, Content.height?,
        loadName_some (loadName_ne_empty fileName)]
  | spacing height =>
      have hne : height ≠ 0 := by
        intro hzero
        exact h (congrArg Content.spacing hzero)
      exact ⟨_, if_neg hne, fun _ => rfl⟩

/-- A normal form holds no spacing without height. -/
theorem content_ne_of_mem_normalFrom {before rest : List Item} {kept : Item}
    (h : kept ∈ normalFrom before rest) : kept.content ≠ .spacing 0 := by
  induction rest generalizing before with
  | nil => simp [normalFrom] at h
  | cons item rest ih =>
      rw [normalFrom, List.mem_append, Option.mem_toList] at h
      rcases h with hfirst | hrest
      · unfold Item.normal? at hfirst
        split at hfirst
        · rename_i hcontent
          obtain rfl := Option.some.inj hfirst
          simp [hcontent]
        · obtain rfl := Option.some.inj hfirst
          simp
        · rename_i height hcontent
          obtain ⟨hne, rfl⟩ : ¬ height = 0 ∧ _ = kept := by simpa using hfirst
          simpa [hcontent] using hne
      · exact ih hrest

/-- Items that all leave a line are written like their normal form. -/
theorem blocks_normalFrom {before rest : List Item}
    (h : ∀ item ∈ rest, item.content ≠ .spacing 0) (printer : Printer) :
    blocks printer (normalFrom before rest) = blocks printer rest := by
  induction rest generalizing before printer with
  | nil => rfl
  | cons item rest ih =>
      obtain ⟨kept, hkept, hwritten⟩ := Item.exists_normal?_eq_some (h item (by simp)) before
      rw [normalFrom, hkept, Option.toList_some, List.singleton_append, blocks, blocks, hwritten,
        ih fun other hother => h other (by simp [hother])]

/-- The text of a script depends on the layout by its blocks. -/
theorem scriptText_congr {a b : List Element}
    (h : blocks .unplaced (items a) = blocks .unplaced (items b)) :
    scriptText (script a) = scriptText (script b) := by
  rw [scriptText, scriptText, map_text_script, map_text_script, h]

namespace CommandLine

/-! ## Acceptance -/

/-- The outcome of a check that accepts a script with a number of elements. -/
def canonicalOutcome (mode : OutputMode) (path : String) (count : Nat) : Outcome :=
  match mode with
  | .json =>
    { output := documentOutput (.sorted
        [("status", .text "canonical"), ("file", .text path), ("elements", .ofNat count)]) }
  | .pretty => { errors := ["canonical: " ++ path] }

/-- A check of a script that is read accepts it if something is recovered and
the script is canonical; otherwise it is a failure. -/
theorem run_check_cases (fresh : Nat → String) {files : Files} {path text : String}
    (hfile : files.entry path = .file text) (mode : OutputMode) :
    ((recoverItems text.toList ≠ [] ∧ isCanonical text.toList = true) ∧
      (Task.check path).run fresh files mode =
        canonicalOutcome mode path (recoverItems text.toList).length) ∨
    (¬ (recoverItems text.toList ≠ [] ∧ isCanonical text.toList = true) ∧
      ((Task.check path).run fresh files mode).code = 1) := by
  have hread : readText files path = .ok text := by rw [readText, hfile]
  have hitems : (recover text.toList).items = recoverItems text.toList := rfl
  rw [Task.run, check, hread]
  simp only [Bind.bind, Except.bind, hitems]
  by_cases hnil : recoverItems text.toList = []
  · right
    rw [if_pos hnil]
    exact ⟨fun haccept => haccept.1 hnil, rfl⟩
  · rw [if_neg hnil]
    cases hcanonical : isCanonical text.toList with
    | true =>
        left
        refine ⟨⟨hnil, rfl⟩, ?_⟩
        cases mode with
        | json => rfl
        | pretty => rfl
    | false =>
        right
        refine ⟨by simp, ?_⟩
        cases mode with
        | json => rfl
        | pretty => rfl

/-- What is canonical, in terms of layouts. -/
theorem isCanonical_iff {text : List Char} :
    recoverItems text ≠ [] ∧ isCanonical text = true ↔
      ∃ layout, CanonicalLayout layout ∧
        Text.trimEnd (plainLineEnds text) = scriptText (script layout) := by
  rw [isCanonical, beq_iff_eq, canonicalText]
  constructor
  · rintro ⟨hne, hcanonical⟩
    have hrepresentable : ∀ item ∈ recoverItems text, item.Representable :=
      fun item hitem => representable_of_mem_recoverItems hitem
    have hnormal : recoverItems text = normalForm (recoverItems text) := by
      have hnamed : ∀ item ∈ items (Item.nameAll (fun _ => "") (recoverItems text)),
          item.Representable := by
        simpa using hrepresentable
      have hback := recoverItems_of_representable hnamed
      rw [← hcanonical, recoverItems_trimEnd_plainLineEnds, items_nameAll] at hback
      exact hback
    refine ⟨Item.nameAll (fun _ => "") (recoverItems text), ⟨?_, ?_, ?_⟩, hcanonical⟩
    · intro hnil
      have hitems := items_nameAll (fun _ => "") (recoverItems text)
      rw [hnil] at hitems
      exact hne hitems.symm
    · intro item hitem
      rw [items_nameAll, hnormal] at hitem
      exact content_ne_of_mem_normalFrom hitem
    · simpa using hrepresentable
  · rintro ⟨layout, hlayout, htext⟩
    have hrecovered : recoverItems text = normalForm (items layout) := by
      rw [← recoverItems_trimEnd_plainLineEnds, htext]
      exact recoverItems_of_representable hlayout.representable
    rw [hrecovered]
    constructor
    · cases layout with
      | nil => exact absurd rfl hlayout.ne_nil
      | cons element layout =>
          obtain ⟨kept, hkept, -⟩ :=
            Item.exists_normal?_eq_some (hlayout.height element.toItem (by simp [items])) []
          simp [normalForm, items, normalFrom, hkept]
    · rw [htext]
      apply scriptText_congr
      rw [items_nameAll, normalForm, blocks_normalFrom hlayout.height]

/-- A check accepts just the scripts of canonical layouts, up to line ends and
blanks at the end, and reports success for no others. In particular it accepts
the script of such a layout with plain line ends and with carriage returns. -/
theorem check_accepts_iff (fresh : Nat → String) {files : Files} {path text : String}
    (hfile : files.entry path = .file text) (mode : OutputMode) :
    ((Task.check path).run fresh files mode =
        canonicalOutcome mode path (recoverItems text.toList).length ↔
      ∃ layout, CanonicalLayout layout ∧
        Text.trimEnd (plainLineEnds text.toList) = scriptText (script layout)) ∧
    (((Task.check path).run fresh files mode).code = 0 ↔
      ∃ layout, CanonicalLayout layout ∧
        Text.trimEnd (plainLineEnds text.toList) = scriptText (script layout)) ∧
    ∀ layout, CanonicalLayout layout →
      text.toList = scriptText (script layout) ∨
        text.toList = withCarriageReturns (scriptText (script layout)) →
      (Task.check path).run fresh files mode =
        canonicalOutcome mode path (recoverItems text.toList).length := by
  have hcode : (canonicalOutcome mode path (recoverItems text.toList).length).code = 0 := by
    cases mode with
    | json => rfl
    | pretty => rfl
  have hreport : (Task.check path).run fresh files mode =
      canonicalOutcome mode path (recoverItems text.toList).length ↔
        ∃ layout, CanonicalLayout layout ∧
          Text.trimEnd (plainLineEnds text.toList) = scriptText (script layout) := by
    rw [← isCanonical_iff]
    rcases run_check_cases fresh hfile mode with ⟨haccept, hrun⟩ | ⟨hrefuse, hrun⟩
    · exact ⟨fun _ => haccept, fun _ => hrun⟩
    · constructor
      · intro hsame
        rw [hsame, hcode] at hrun
        exact absurd hrun (by simp)
      · exact fun haccept => absurd haccept hrefuse
  refine ⟨hreport, ?_, ?_⟩
  · rw [← isCanonical_iff]
    rcases run_check_cases fresh hfile mode with ⟨haccept, hrun⟩ | ⟨hrefuse, hrun⟩
    · rw [hrun, hcode]
      exact ⟨fun _ => haccept, fun _ => rfl⟩
    · rw [hrun]
      exact ⟨fun hzero => absurd hzero (by simp), fun haccept => absurd haccept hrefuse⟩
  · intro layout hlayout htext
    apply hreport.mpr
    refine ⟨layout, hlayout, ?_⟩
    have hplain : plainLineEnds text.toList = scriptText (script layout) := by
      rcases htext with hplain | hreturns
      · rw [hplain]
        exact plainLineEnds_scriptText fun item hitem =>
          (hlayout.representable item hitem).lineFeeds_eq_zero
      · rw [hreturns, plainLineEnds_withCarriageReturns]
    rw [hplain, trimEnd_scriptText]

/-- A layout of one text. -/
def greetingLayout : List Element := [{ content := .text "hello", id := "e1" }]

/-- Its script with carriage returns. -/
def greetingScript : String :=
  String.ofList (withCarriageReturns (scriptText (script greetingLayout)))

/-- Files that hold this script everywhere. -/
def greetingFiles : Files := ⟨fun _ => .file greetingScript, fun _ => true⟩

/-- A check of this script accepts it. -/
theorem check_accepts_greeting :
    CanonicalLayout greetingLayout ∧
    (Task.check "hello.txt").run (freshId 0) greetingFiles .json =
      canonicalOutcome .json "hello.txt" (recoverItems greetingScript.toList).length := by
  have hlayout : CanonicalLayout greetingLayout := ⟨by decide, by decide, by decide⟩
  have hfile : greetingFiles.entry "hello.txt" = .file greetingScript := rfl
  have hcheck := check_accepts_iff (freshId 0) hfile .json
  exact ⟨hlayout, hcheck.2.2 greetingLayout hlayout (Or.inr String.toList_ofList)⟩

end CommandLine

end TicketPress
