import TicketPress.CommandLine.Run
import TicketPress.Proofs.Project.Document

/-!
# What an import leaves behind

An import either leaves all files as they are and is a failure, or writes its
target and nothing else. What it writes is the project it started from with
the layout of the script; so the target, read again, differs from what it held
in its layout only, and the script that is generated from it is the one of the
layout recovered.
-/

namespace TicketPress.CommandLine

open Json (ReadsBack)

/-! ## The project an import starts from -/

/-- Which project an import starts from, by what stands under the path of its
target: none at all if that is there and holds no project. -/
inductive StartsFrom (fresh : Nat → String) : Entry → Project → Prop
  | missing : StartsFrom fresh .missing .initial
  | file {text : String} {project : Project} (h : Project.read fresh text = .ok project) :
      StartsFrom fresh (.file text) project

theorem importTarget_eq_ok_iff {fresh : Nat → String} {files : Files} {path : String}
    {project : Project} :
    importTarget fresh files path = .ok project ↔ StartsFrom fresh (files.entry path) project := by
  unfold importTarget readText loadProject
  cases files.entry path with
  | missing =>
    constructor
    · intro h
      cases h
      exact .missing
    · rintro ⟨⟩
      rfl
  | unreadable =>
    constructor
    · intro h
      cases h
    · rintro ⟨⟩
  | file text =>
    constructor
    · intro h
      cases hread : Project.read fresh text with
      | error fault => simp [hread, Bind.bind, Except.bind] at h
      | ok found =>
        simp only [hread, Bind.bind, Except.bind, Except.ok.injEq] at h
        subst h
        exact .file hread
    · rintro (_ | hread)
      simp only [hread, Bind.bind, Except.bind]

/-- An import starts from a normal project. -/
theorem StartsFrom.normal {fresh : Nat → String} {entry : Entry} {project : Project}
    (h : StartsFrom fresh entry project) : project.Normal := by
  cases h with
  | missing => exact ⟨by decide, by decide, by decide, by decide, by decide⟩
  | file hread => exact Project.normal_of_read hread

theorem StartsFrom.readsBack {fresh : Nat → String} {entry : Entry} {project : Project}
    (h : StartsFrom fresh entry project)
    (hback : ∀ old project, entry = .file old → Project.read fresh old = .ok project →
      ReadsBack project.overlayScale) : ReadsBack project.overlayScale := by
  cases h with
  | missing => exact Project.readsBack_defaultOverlayScale
  | file hread => exact hback _ _ rfl hread

/-! ## The two outcomes -/

/-- The outcome of an import that has written a project. -/
def writtenOutcome (mode : OutputMode) (target : String) (count : Nat) (project : Project) :
    Outcome :=
  { importedOutcome mode target count with written := some (target, project.write) }

theorem code_writtenOutcome (mode : OutputMode) (target : String) (count : Nat)
    (project : Project) : (writtenOutcome mode target count project).code = 0 := by
  cases mode <;> rfl

/-- An import of a script without elements, or into something that holds no
project, is a failure that writes nothing. -/
theorem run_importInto_of_refused {fresh : Nat → String} {files : Files} {path target text : String}
    (hscript : files.entry path = .file text)
    (hrefused : (recover text.toList).items = [] ∨
      ∀ project, ¬ StartsFrom fresh (files.entry target) project) (mode : OutputMode) :
    ((Task.importInto path target).run fresh files mode).code = 1 ∧
      ((Task.importInto path target).run fresh files mode).written = none := by
  have hread : readText files path = .ok text := by rw [readText, hscript]
  rw [Task.run, importInto, hread]
  simp only [Bind.bind, Except.bind]
  split
  · cases mode <;> exact ⟨rfl, rfl⟩
  · rename_i hitems
    cases hproject : importTarget fresh files target with
    | error failure => exact ⟨rfl, rfl⟩
    | ok project =>
      rcases hrefused with hnone | hnone
      · exact absurd hnone hitems
      · exact absurd (importTarget_eq_ok_iff.mp hproject) (hnone project)

/-- Any other import writes the project with the layout of the script. -/
theorem run_importInto_of_startsFrom {fresh : Nat → String} {files : Files}
    {path target text : String} (hscript : files.entry path = .file text)
    (hitems : (recover text.toList).items ≠ []) {project : Project}
    (hproject : StartsFrom fresh (files.entry target) project)
    (hwritable : files.writable target = true) (mode : OutputMode) :
    (Task.importInto path target).run fresh files mode =
      writtenOutcome mode target (recover text.toList).items.length
        (project.withLayout ((recover text.toList).layout fresh)) := by
  have hread : readText files path = .ok text := by rw [readText, hscript]
  rw [Task.run, importInto, hread]
  simp only [Bind.bind, Except.bind, if_neg hitems, importTarget_eq_ok_iff.mpr hproject, hwritable,
    if_true]
  rfl

/-! ## The file that is written -/

/-- The text of a project is not taken for a layout. -/
theorem isLayoutText_write (project : Project) : isLayoutText project.write = false := by
  have hfirst : ∃ rest, project.write.toList = '\x7b' :: rest := ⟨_, String.toList_ofList⟩
  obtain ⟨rest, hrest⟩ := hfirst
  rw [isLayoutText, hrest]
  rfl

/-- What generating prints for a layout. -/
def scriptOutput (mode : OutputMode) (layout : List Element) : String :=
  let text := String.ofList (scriptText (script layout))
  match mode with
  | .json => documentOutput (.sorted [("script", .text text)])
  | .pretty => asLine text

/-- Generating from a file of a project prints the script of its layout. -/
theorem run_generate_of_read {fresh : Nat → String} {files : Files} {path : String}
    {project : Project} (hfile : files.entry path = .file project.write)
    (hread : Project.read fresh project.write = .ok project) (mode : OutputMode) :
    (Task.generate path false).run fresh files mode =
      { output := scriptOutput mode project.layout } := by
  have htext : readText files path = .ok project.write := by rw [readText, hfile]
  have hload : loadProject fresh path project.write = .ok project := by rw [loadProject, hread]
  rw [Task.run, generate, readLayoutFile, htext]
  simp only [Bind.bind, Except.bind, isLayoutText_write, Bool.false_eq_true, if_false, hload]
  cases mode <;> rfl

/-! ## Imports -/

/-- **All or nothing.** An import of a script without elements, or into
something that holds no project, fails and changes no file. Any other one, if
its target can be written, succeeds and writes its target alone. Read again, in
whatever run, that is the project the import started from with the layout of
the script, and the script generated from it is the one of that layout. Of the
factor of a project that was there it is assumed that its text is read as the
same float. -/
theorem importInto_all_or_nothing (fresh : Nat → String) {files : Files}
    {path target text : String} (hscript : files.entry path = .file text)
    (hback : ∀ old project, files.entry target = .file old →
      Project.read fresh old = .ok project → ReadsBack project.overlayScale)
    (mode : OutputMode) :
    let found := recover text.toList
    let outcome := (Task.importInto path target).run fresh files mode
    let after := outcome.applyTo files
    ((found.items = [] ∨ ∀ project, ¬ StartsFrom fresh (files.entry target) project) →
      outcome.code = 1 ∧ after = files) ∧
    ∀ project, found.items ≠ [] → StartsFrom fresh (files.entry target) project →
      files.writable target = true →
        outcome.code = 0 ∧
        (∀ other, other ≠ target → after.entry other = files.entry other) ∧
        ∃ written, after.entry target = .file written ∧
          (∀ fresh', Project.read fresh' written =
            .ok (project.withLayout (found.layout fresh))) ∧
          ∀ fresh' mode', (Task.generate target false).run fresh' after mode' =
            { output := scriptOutput mode' (found.layout fresh) } := by
  intro found outcome after
  constructor
  · intro hrefused
    obtain ⟨hcode, hwritten⟩ := run_importInto_of_refused hscript hrefused mode
    exact ⟨hcode, by simp only [after, outcome, Outcome.applyTo, hwritten]⟩
  · intro project hitems hproject hwritable
    have hrun : outcome = writtenOutcome mode target found.items.length
        (project.withLayout (found.layout fresh)) :=
      run_importInto_of_startsFrom hscript hitems hproject hwritable mode
    have hafter : after = files.write target (project.withLayout (found.layout fresh)).write := by
      simp only [after, hrun, Outcome.applyTo, writtenOutcome]
    have hread : ∀ fresh', Project.read fresh' (project.withLayout (found.layout fresh)).write =
        .ok (project.withLayout (found.layout fresh)) := fun fresh' =>
      Project.read_write fresh' (hproject.normal.withLayout _) (hproject.readsBack hback)
    rw [hafter]
    refine ⟨by rw [hrun, code_writtenOutcome], fun other hother => Files.entry_write_other hother,
      _, Files.entry_write_same files target _, hread, fun fresh' mode' => ?_⟩
    exact run_generate_of_read (Files.entry_write_same files target _) (hread fresh') mode'

/-- A script of one feed. -/
def feedScript : String := "BinaryOut(0x1B, 0x4A, 24);"

/-- This script beside a project with the most extreme values. -/
def feedFiles : Files where
  entry path := if path = "feed.txt" then .file feedScript else .file Project.extremes.write
  writable _ := true

/-- The project keeps its values and gets the one spacing. -/
theorem importInto_feed :
    feedFiles.entry "feed.txt" = .file feedScript ∧
    StartsFrom (freshId 0) (feedFiles.entry "ticket.json") Project.extremes ∧
    ReadsBack Project.extremes.overlayScale ∧
    ∃ written,
      (((Task.importInto "feed.txt" "ticket.json").run (freshId 0) feedFiles .json).applyTo
        feedFiles).entry "ticket.json" = .file written ∧
      Project.read (freshId 1) written = .ok (Project.extremes.withLayout
        [{ content := .spacing 24, id := freshId 0 0 }]) := by
  have hscript : feedFiles.entry "feed.txt" = .file feedScript := rfl
  have hread := Project.read_write (freshId 0) Project.extremes_normal
    Project.readsBack_defaultOverlayScale
  have hproject : StartsFrom (freshId 0) (feedFiles.entry "ticket.json") Project.extremes :=
    .file hread
  have hback : ∀ old project, feedFiles.entry "ticket.json" = .file old →
      Project.read (freshId 0) old = .ok project → ReadsBack project.overlayScale := by
    intro old project hentry hold
    have hheld : feedFiles.entry "ticket.json" = .file Project.extremes.write := rfl
    obtain rfl : Project.extremes.write = old := Entry.file.inj (hheld.symm.trans hentry)
    obtain rfl : Project.extremes = project := Except.ok.inj (hread.symm.trans hold)
    exact Project.readsBack_defaultOverlayScale
  have hitems : (recover feedScript.toList).items = [{ content := .spacing 24 }] := by
    decide +kernel
  have hlayout : (recover feedScript.toList).layout (freshId 0) =
      [{ content := .spacing 24, id := freshId 0 0 }] := by
    rw [Recovery.layout, hitems]
    rfl
  have hsome : (recover feedScript.toList).items ≠ [] := by simp [hitems]
  obtain ⟨-, -, written, hwritten, hagain, -⟩ :=
    (importInto_all_or_nothing (freshId 0) hscript hback .json).2 Project.extremes hsome hproject rfl
  refine ⟨hscript, hproject, Project.readsBack_defaultOverlayScale, written, hwritten, ?_⟩
  rw [hagain (freshId 1), hlayout]

end TicketPress.CommandLine
