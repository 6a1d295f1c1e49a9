import Mathlib.Data.Nat.Find
import TicketPress.Proofs.CommandLine.Canonical

/-!
# The difference that a check shows

A check compares whole texts, and shows a difference of lines. The lines are
read without the carriage return before their line feed, and that is one
carriage return more than making line ends plain takes away. So the two agree
but for lines that are the canonical one and a carriage return: where the
first difference is such a line it is passed over, and a script that has no
other differences is refused with none to show.
-/

namespace TicketPress.CommandLine

/-! ## First differences -/

/-- The first index at which two lists of lines differ; one of them may have
no line there. -/
structure IsFirstDifference (want got : List (List Char)) (k : Nat) : Prop where
  before : ∀ j < k, want[j]? = got[j]?
  differ : want[k]? ≠ got[k]?

/-- The line with an index, or what stands for it. -/
def lineAt (lines : List (List Char)) (k : Nat) : List Char := lines[k]?.getD missingLine

theorem exists_isFirstDifference {want got : List (List Char)} (h : want ≠ got) :
    ∃ k, IsFirstDifference want got k := by
  have hsome : ∃ k : Nat, want[k]? ≠ got[k]? := by
    by_contra hnone
    exact h (List.ext_getElem? fun k => not_not.mp fun hk => hnone ⟨k, hk⟩)
  exact ⟨Nat.find hsome, fun j hj => not_not.mp (Nat.find_min hsome hj), Nat.find_spec hsome⟩

theorem IsFirstDifference.unique {want got : List (List Char)} {k l : Nat}
    (hk : IsFirstDifference want got k) (hl : IsFirstDifference want got l) : k = l := by
  rcases Nat.lt_trichotomy k l with hlt | heq | hgt
  · exact absurd (hl.before k hlt) hk.differ
  · exact heq
  · exact absurd (hk.before l hgt) hl.differ

theorem IsFirstDifference.eq_zero {want got : List (List Char)} {k : Nat}
    (h : IsFirstDifference want got k) (hhead : want[0]? ≠ got[0]?) : k = 0 :=
  h.unique ⟨fun _ hj => absurd hj (Nat.not_lt_zero _), hhead⟩

theorem IsFirstDifference.of_cons {line : List Char} {want got : List (List Char)} {k : Nat}
    (h : IsFirstDifference (line :: want) (line :: got) k) :
    ∃ l, k = l + 1 ∧ IsFirstDifference want got l := by
  cases k with
  | zero => exact absurd rfl h.differ
  | succ l =>
      refine ⟨l, rfl, fun j hj => ?_, h.differ⟩
      exact h.before (j + 1) (Nat.succ_lt_succ hj)

theorem firstDifferenceFrom_self (n : Nat) (lines : List (List Char)) :
    firstDifferenceFrom n lines lines = none := by
  induction lines generalizing n with
  | nil => rfl
  | cons line lines ih => rw [firstDifferenceFrom, if_pos rfl, ih]

/-- The search along two lists of lines ends at their first difference. -/
theorem IsFirstDifference.found {want got : List (List Char)} {k : Nat}
    (h : IsFirstDifference want got k) (n : Nat) :
    firstDifferenceFrom n want got = some (n + k, lineAt want k, lineAt got k) := by
  fun_induction firstDifferenceFrom n want got generalizing k with
  | case1 n => exact absurd rfl h.differ
  | case2 n want wants =>
      obtain rfl := h.eq_zero (by simp)
      rfl
  | case3 n got gots =>
      obtain rfl := h.eq_zero (by simp)
      rfl
  | case4 n want wants gots ih =>
      obtain ⟨l, rfl, hrest⟩ := h.of_cons
      rw [ih hrest, Nat.add_right_comm, Nat.add_assoc]
      rfl
  | case5 n want wants got gots hne =>
      obtain rfl := h.eq_zero (by simpa using hne)
      rfl

theorem firstDifferenceFrom_eq_none_iff {n : Nat} {want got : List (List Char)} :
    firstDifferenceFrom n want got = none ↔ want = got := by
  constructor
  · intro hnone
    by_contra hne
    obtain ⟨k, hk⟩ := exists_isFirstDifference hne
    rw [hk.found n] at hnone
    exact absurd hnone (by simp)
  · rintro rfl
    exact firstDifferenceFrom_self n want

theorem firstDifferenceFrom_eq_some_iff {n k : Nat} {want got : List (List Char)} :
    firstDifferenceFrom n want got = some (n + k, lineAt want k, lineAt got k) ↔
      IsFirstDifference want got k := by
  constructor
  · intro hfound
    have hne : want ≠ got := by
      rintro rfl
      rw [firstDifferenceFrom_self] at hfound
      exact absurd hfound (by simp)
    obtain ⟨l, hl⟩ := exists_isFirstDifference hne
    rw [hl.found n, Option.some.injEq, Prod.mk.injEq] at hfound
    obtain rfl : l = k := Nat.add_left_cancel hfound.1
    exact hl
  · exact fun h => h.found n

/-! ## Lines without their carriage returns -/

/-- A first difference stays one when carriage returns are taken off, unless it
is a line and a carriage return. -/
theorem IsFirstDifference.map_chomp_iff {want got : List (List Char)} {k : Nat}
    (h : IsFirstDifference want got k) (hwant : ∀ line ∈ want, line.getLast? ≠ some '\r') :
    IsFirstDifference want (got.map Text.chomp) k ↔ got[k]? ≠ want[k]?.map (· ++ ['\r']) := by
  have hbefore : ∀ j < k, want[j]? = (got.map Text.chomp)[j]? := by
    intro j hj
    rw [List.getElem?_map, ← h.before j hj]
    cases hline : want[j]? with
    | none => rfl
    | some line =>
        rw [Option.map_some, Text.chomp_of_getLast?_ne (hwant line (List.mem_of_getElem? hline))]
  have hthere : want[k]? = (got.map Text.chomp)[k]? ↔ got[k]? = want[k]?.map (· ++ ['\r']) := by
    have hdiffer := h.differ
    rw [List.getElem?_map]
    cases hline : want[k]? with
    | none => cases got[k]? with
      | none => simp
      | some piece => simp
    | some line =>
        have hend := hwant line (List.mem_of_getElem? hline)
        rw [hline] at hdiffer
        cases hpiece : got[k]? with
        | none => simp
        | some piece =>
            have hne : piece ≠ line := by
              rintro rfl
              exact hdiffer hpiece.symm
            rw [Option.map_some, Option.map_some, Option.some.injEq, Option.some.injEq, eq_comm,
              Text.chomp_eq_iff hend, or_iff_right hne]
  constructor
  · intro hfirst heq
    exact hfirst.differ (hthere.mpr heq)
  · intro hne
    exact ⟨hbefore, fun heq => hne (hthere.mp heq)⟩

/-! ## Scripts -/

/-- The lines of the canonical script. -/
def canonicalLines (script : List Char) : List (List Char) :=
  Text.pieces (canonicalText (recoverItems script))

/-- The lines of a script as the check compares it. -/
def comparedLines (script : List Char) : List (List Char) :=
  Text.pieces (Text.trimEnd (plainLineEnds script))

/-- The difference that the check of a script shows. -/
def shownDifference (script : List Char) : Option (Nat × List Char × List Char) :=
  firstDifference (canonicalText (recoverItems script)) (plainLineEnds script)

theorem isCanonical_iff_lines {script : List Char} :
    isCanonical script = true ↔ canonicalLines script = comparedLines script := by
  rw [isCanonical, beq_iff_eq, canonicalLines, comparedLines]
  constructor
  · intro hsame
    rw [hsame]
  · intro hlines
    have hjoined := congrArg ['\n'].intercalate hlines
    rw [Text.intercalate_pieces, Text.intercalate_pieces] at hjoined
    exact hjoined.symm

/-- A text that ends in no blank has a line for every piece, and giving up the
carriage returns on them is making its line ends plain. -/
theorem lines_of_trimmed {text : List Char} (h : Text.trimEnd text = text) (hne : text ≠ []) :
    Text.lines text = (Text.pieces text).map Text.chomp ∧
      (Text.pieces text).map Text.chomp = Text.pieces (plainLineEnds text) := by
  obtain ⟨front, c, rfl, hblank⟩ := Text.exists_concat_of_trimEnd_eq h hne
  have hfeed : c ≠ '\n' := by
    rintro rfl
    exact absurd hblank (by decide)
  have hreturn : c ≠ '\r' := by
    rintro rfl
    exact absurd hblank (by decide)
  exact ⟨Text.lines_concat hfeed hreturn front, map_chomp_pieces hfeed hreturn front⟩

/-- The canonical script has plain line ends and no blanks behind it, and no
line of it ends in a carriage return. -/
theorem canonicalText_plain (script : List Char) :
    Text.trimEnd (canonicalText (recoverItems script)) = canonicalText (recoverItems script) ∧
      ∀ line ∈ canonicalLines script, line.getLast? ≠ some '\r' := by
  refine ⟨trimEnd_scriptText _, fun line hline => ?_⟩
  have hfeeds : ∀ item ∈ items (Item.nameAll (fun _ => "") (recoverItems script)),
      item.lineFeeds = 0 := by
    intro item hitem
    rw [items_nameAll] at hitem
    exact (representable_of_mem_recoverItems hitem).lineFeeds_eq_zero
  rw [canonicalLines, canonicalText, pieces_scriptText hfeeds] at hline
  exact getLast?_ne_of_mem_script hline

theorem canonicalText_ne_nil (script : List Char) : canonicalText (recoverItems script) ≠ [] := by
  rw [canonicalText, scriptText, map_text_script]
  simp [preamble, frameLine, List.intercalate]

theorem map_chomp_canonicalLines (script : List Char) :
    (canonicalLines script).map Text.chomp = canonicalLines script :=
  (List.map_congr_left fun line hline =>
    Text.chomp_of_getLast?_ne ((canonicalText_plain script).2 line hline)).trans (List.map_id _)

/-- Something is compared if something was recovered. -/
theorem compared_ne_nil {script : List Char} (h : recoverItems script ≠ []) :
    Text.trimEnd (plainLineEnds script) ≠ [] := by
  intro hnil
  apply h
  rw [← recoverItems_trimEnd_plainLineEnds, hnil]
  rfl

/-- The difference shown is the first one between the canonical lines and the
compared ones without carriage returns at their ends. -/
theorem shownDifference_eq {script : List Char}
    (h : Text.trimEnd (plainLineEnds script) ≠ []) :
    shownDifference script = firstDifferenceFrom 1 (canonicalLines script)
      ((comparedLines script).map Text.chomp) := by
  have hcanonical :=
    (lines_of_trimmed (canonicalText_plain script).1 (canonicalText_ne_nil script)).1
  have hcompared := (lines_of_trimmed (Text.trimEnd_trimEnd _) h).1
  rw [shownDifference, firstDifference, hcanonical, hcompared, ← canonicalLines,
    map_chomp_canonicalLines, ← comparedLines]

/-- Without a carriage return in front of a carriage return and a line feed,
the compared lines end in no carriage returns. -/
theorem map_chomp_comparedLines {script : List Char}
    (h : Text.trimEnd (plainLineEnds script) ≠ [])
    (hstray : ¬ ['\r', '\r', '\n'] <:+: script) :
    (comparedLines script).map Text.chomp = comparedLines script := by
  have hplain : ¬ ['\r', '\n'] <:+: Text.trimEnd (plainLineEnds script) := fun hpart =>
    not_infix_plainLineEnds hstray (hpart.trans (Text.trimEnd_isPrefix _).isInfix)
  rw [comparedLines, (lines_of_trimmed (Text.trimEnd_trimEnd _) h).2,
    plainLineEnds_of_not_infix hplain]

/-- A check that refuses a script with elements shows this difference. -/
theorem errors_check_of_refused (fresh : Nat → String) {files : Files} {path text : String}
    (hfile : files.entry path = .file text) (hne : recoverItems text.toList ≠ [])
    (hrefused : isCanonical text.toList = false) :
    ((Task.check path).run fresh files .pretty).errors =
      ("not canonical: " ++ path) ::
        (shownDifference text.toList).toList.flatMap differenceLines := by
  have hread : readText files path = .ok text := by rw [readText, hfile]
  have hitems : (recover text.toList).items = recoverItems text.toList := rfl
  rw [Task.run, check, hread]
  simp only [Bind.bind, Except.bind, hitems, if_neg hne, hrefused]
  rfl

/-! ## The result -/

/-- For a canonical script no difference is shown. For another one that has
elements, the first line in which it differs from the canonical script is shown
with its number, and `<end>` for a line that is missing, unless this line is
the canonical one and a carriage return. Such lines are passed over, and they
come only from two carriage returns before a line feed; nothing is shown just
if there is no other difference. -/
theorem shownDifference_of_check (script : List Char) :
    (isCanonical script = true → shownDifference script = none) ∧
    (recoverItems script ≠ [] → isCanonical script = false →
      ∃ k, IsFirstDifference (canonicalLines script) (comparedLines script) k ∧
        (shownDifference script = some (k + 1, lineAt (canonicalLines script) k,
            lineAt ((comparedLines script).map Text.chomp) k) ↔
          (comparedLines script)[k]? ≠ (canonicalLines script)[k]?.map (· ++ ['\r'])) ∧
        (¬ ['\r', '\r', '\n'] <:+: script →
          shownDifference script =
            some (k + 1, lineAt (canonicalLines script) k, lineAt (comparedLines script) k))) ∧
    (recoverItems script ≠ [] →
      (shownDifference script = none ↔
        (comparedLines script).map Text.chomp = canonicalLines script)) := by
  refine ⟨fun haccepted => ?_, fun hne hrefused => ?_, fun hne => ?_⟩
  · have hsame : Text.trimEnd (plainLineEnds script) = canonicalText (recoverItems script) := by
      simpa only [isCanonical, beq_iff_eq] using haccepted
    have hcompared : Text.trimEnd (plainLineEnds script) ≠ [] := by
      rw [hsame]
      exact canonicalText_ne_nil script
    rw [shownDifference_eq hcompared, firstDifferenceFrom_eq_none_iff,
      ← isCanonical_iff_lines.mp haccepted, map_chomp_canonicalLines]
  · have hcompared := compared_ne_nil hne
    have hdiffer : canonicalLines script ≠ comparedLines script := by
      intro hsame
      rw [isCanonical_iff_lines.mpr hsame] at hrefused
      exact absurd hrefused (by simp)
    obtain ⟨k, hk⟩ := exists_isFirstDifference hdiffer
    refine ⟨k, hk, ?_, fun hstray => ?_⟩
    · rw [shownDifference_eq hcompared, Nat.add_comm k 1, firstDifferenceFrom_eq_some_iff]
      exact hk.map_chomp_iff (canonicalText_plain script).2
    · rw [shownDifference_eq hcompared, map_chomp_comparedLines hcompared hstray,
        Nat.add_comm k 1]
      exact hk.found 1
  · rw [shownDifference_eq (compared_ne_nil hne), firstDifferenceFrom_eq_none_iff, eq_comm]

/-- The script of the greeting with a remark behind its last line. -/
def remarkedScript : List Char := scriptText (script greetingLayout) ++ " // more room".toList

/-- The remark is what is shown of it. -/
theorem shownDifference_remarked :
    recoverItems remarkedScript ≠ [] ∧ isCanonical remarkedScript = false ∧
      ¬ ['\r', '\r', '\n'] <:+: remarkedScript ∧
      ∃ k, IsFirstDifference (canonicalLines remarkedScript) (comparedLines remarkedScript) k ∧
        shownDifference remarkedScript =
          some (k + 1, lineAt (canonicalLines remarkedScript) k,
            lineAt (comparedLines remarkedScript) k) := by
  have hne : recoverItems remarkedScript ≠ [] := by decide +kernel
  have hrefused : isCanonical remarkedScript = false := by decide +kernel
  have hstray : ¬ ['\r', '\r', '\n'] <:+: remarkedScript := by decide +kernel
  obtain ⟨k, hk, -, hshown⟩ := (shownDifference_of_check remarkedScript).2.1 hne hrefused
  exact ⟨hne, hrefused, hstray, k, hk, hshown hstray⟩

/-- The script of the greeting with two carriage returns behind its first
line. -/
def strayScript : List Char :=
  ['\n'].intercalate
    (((script greetingLayout).map ScriptLine.text).modifyHead (· ++ ['\r', '\r']))

/-- Files that hold this script everywhere. -/
def strayFiles : Files := ⟨fun _ => .file (String.ofList strayScript), fun _ => true⟩

/-- It differs from the canonical script in its first line and is refused, but
no difference is shown. -/
theorem refused_without_difference :
    recoverItems strayScript ≠ [] ∧ isCanonical strayScript = false ∧
      IsFirstDifference (canonicalLines strayScript) (comparedLines strayScript) 0 ∧
      shownDifference strayScript = none ∧
      ((Task.check "hello.txt").run (freshId 0) strayFiles .pretty).errors =
        ["not canonical: hello.txt"] := by
  have hne : recoverItems strayScript ≠ [] := by decide +kernel
  have hnone : shownDifference strayScript = none := by decide +kernel
  have hdiffer : (canonicalLines strayScript)[0]? ≠ (comparedLines strayScript)[0]? := by
    decide +kernel
  have hrefused : isCanonical strayScript = false := by
    rw [← Bool.not_eq_true, isCanonical_iff_lines]
    intro hsame
    exact hdiffer (by rw [hsame])
  have hfile : strayFiles.entry "hello.txt" = .file (String.ofList strayScript) := rfl
  refine ⟨hne, hrefused, ⟨fun j hj => absurd hj (Nat.not_lt_zero j), hdiffer⟩, hnone, ?_⟩
  rw [errors_check_of_refused (freshId 0) hfile (by rwa [String.toList_ofList])
    (by rwa [String.toList_ofList]), String.toList_ofList, hnone]
  rfl

end TicketPress.CommandLine
