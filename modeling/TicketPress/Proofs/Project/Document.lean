import TicketPress.Project.Document
import TicketPress.Proofs.Bindings
import TicketPress.Proofs.Element.Document
import TicketPress.Proofs.Project.Dots

/-!
# Reading back projects

A project that is written and read again is the same project, unless it holds
a value that no reader gives: an empty name, a size of no dots, a factor that
cannot be used. Such a value gives way to a default. `Project.Normal` says that
a project holds none of them, and a reader gives normal projects only
(`Project.normal_of_read`), so whatever was read once stays as it is.

That the factor comes back is known of the factor at hand (`Json.ReadsBack`);
all else is proved here of every project.
-/

namespace TicketPress

open Json (Value Draft Members Answer ReadsBack)

/-! ## Fields -/

namespace ProjectFields

theorem askFloat_eq {draft : Draft} {x : Float} (h : draft.asFloat = .ok x) :
    askFloat draft = .ok (some x) := by
  obtain ⟨numeral, rfl⟩ := Json.exists_numeral_of_asFloat h
  simp [askFloat, Draft.asOption, h, Except.map]

/-- What has been met of a project that was written. -/
def ofProject (project : Project) : ProjectFields where
  name := some (some project.name)
  width := some (some project.width.toNat.toUInt64.toFloat)
  height := some (some project.height.toNat.toUInt64.toFloat)
  overlayScale := some (some project.overlayScale)
  elements := some (some project.layout)
  samples := some (some project.samples)

theorem ask_encode (fresh : Nat → String) {project : Project}
    (h : ReadsBack project.overlayScale) :
    ask fresh Json.maxDepth project.encode.draft = .ok (ofProject project) := by
  have hdots : ∀ w : UInt32, askFloat (Value.ofNat w.toNat).draft =
      .ok (some w.toNat.toUInt64.toFloat) := fun w =>
    askFloat_eq (Json.asFloat_draft_ofNat (Nat.le_trans w.toNat_lt.le (by decide)))
  have hscale : askFloat (Value.number (.float project.overlayScale)).draft =
      .ok (some project.overlayScale) := askFloat_eq h.asFloat_draft
  have hname : askText (Value.text project.name).draft = .ok (some project.name) := rfl
  have helements : askElements fresh (Json.maxDepth - 1) (encodeLayout project.layout).draft =
      .ok (some project.layout) :=
    Json.asOption_eq (Element.askAll_encodeLayout fresh project.layout (by decide))
      (by simp [encodeLayout])
  have hsamples : askSamples (Json.maxDepth - 1) project.samples.encode.draft =
      .ok (some project.samples) :=
    Json.asOption_eq (project.samples.ask_encode (by decide)) (by simp [Bindings.encode])
  have henter := Json.enter_of_lt (by decide : 1 < Json.maxDepth)
  simp only [Project.encode, Json.draft_object, ask, henter, Json.lift_ok,
    Json.collect_draftMembers, List.foldlM_cons, List.foldlM_nil, step, hname, hdots, hscale,
    helements, hsamples, Json.fill, Except.map, Bind.bind, Except.bind, Pure.pure, Except.pure]
  rfl

end ProjectFields

/-! ## Projects -/

namespace Project

/-- Whether a project holds only values that a reader can give. -/
structure Normal (project : Project) : Prop where
  name_ne : project.name ≠ ""
  one_le_width : 1 ≤ project.width
  one_le_height : 1 ≤ project.height
  isFinite_overlayScale : project.overlayScale.isFinite = true
  /-- Neither of the two zeros. -/
  overlayScale_ne : project.overlayScale != 0.0

/-- No layout keeps a project from being normal. -/
theorem Normal.withLayout {project : Project} (h : project.Normal) (layout : List Element) :
    (project.withLayout layout).Normal :=
  ⟨h.name_ne, h.one_le_width, h.one_le_height, h.isFinite_overlayScale, h.overlayScale_ne⟩

theorem legible_encode {project : Project} (h : ReadsBack project.overlayScale) :
    project.encode.Legible := by
  have hlayout := legible_encodeLayout project.layout
  have hsamples := project.samples.legible_encode
  exact ⟨trivial, Json.Number.legible_integer _, Json.Number.legible_integer _, h.legible, hlayout,
    hsamples, trivial⟩

/-- The factor of a new project is read back. -/
theorem readsBack_defaultOverlayScale : ReadsBack defaultOverlayScale := by
  have hwritten : (Json.Number.float defaultOverlayScale).write = "0.775".toList := by
    decide +kernel
  have hmagnitude : Json.readMagnitude false "0.775".toList =
      .ok (⟨false, [0], [7, 7, 5], none⟩, []) := rfl
  have hscaled : Json.scaled? 775 (-3) = some defaultOverlayScale := by decide +kernel
  refine Json.readsBack_of_numeral
    (hwritten ▸ Json.readNumeral_of_magnitude (by decide) hmagnitude) ?_
  simp [Json.Numeral.number, Json.gather, Json.largest, UInt64.size, hscaled]

/-- A normal project whose factor is read back is read back. -/
theorem read_write (fresh : Nat → String) {project : Project} (h : project.Normal)
    (hback : ReadsBack project.overlayScale) :
    read fresh project.write = .ok project := by
  have hfields : Json.decode (ProjectFields.ask fresh) project.write =
      .ok (ProjectFields.ofProject project) := by
    rw [write, Json.decode_writePretty (legible_encode hback), ProjectFields.ask_encode fresh hback]
  have hwidth := ProjectFields.dots?_toFloat h.one_le_width
  have hheight := ProjectFields.dots?_toFloat h.one_le_height
  have hscale : ProjectFields.usableScale project.overlayScale = true := by
    rw [ProjectFields.usableScale, h.isFinite_overlayScale, h.overlayScale_ne]
    rfl
  rw [read, hfields]
  simp only [ProjectFields.finish, ProjectFields.ofProject, Option.join_some, Option.bind_some,
    hwidth, hheight, Option.some_or, Option.getD_some, Option.filter_some, hscale, h.name_ne,
    ne_eq, not_false_eq_true, decide_true, if_true]

/-- A value that gives way to a usable default leaves a usable one. -/
theorem getD_filter {α : Type} (usable : α → Bool) (default : α) (h : usable default = true)
    (given : Option α) : usable ((given.filter usable).getD default) = true := by
  cases hgiven : given.filter usable with
  | none => exact h
  | some value => exact (Option.filter_eq_some_iff.mp hgiven).2

theorem one_le_getD {given : Option UInt32} {default : UInt32} (h : 1 ≤ default)
    (hgiven : ∀ w, given = some w → 1 ≤ w) : 1 ≤ given.getD default := by
  cases given with
  | none => exact h
  | some w => exact hgiven w rfl

theorem one_le_of_bind_dots? {given : Option Float} {w : UInt32}
    (h : given.bind ProjectFields.dots? = some w) : 1 ≤ w := by
  obtain ⟨x, -, hx⟩ := Option.bind_eq_some_iff.mp h
  exact ProjectFields.one_le_of_dots? hx

/-- What is read is normal. -/
theorem normal_of_read {fresh : Nat → String} {text : String} {project : Project}
    (h : read fresh text = .ok project) : project.Normal := by
  unfold read at h
  split at h
  · rename_i fields _
    unfold ProjectFields.finish at h
    split at h
    · cases h
    · cases h
      have hname := getD_filter (· ≠ "") loadedName (by decide) fields.name.join
      have hscale := getD_filter ProjectFields.usableScale defaultOverlayScale (by decide)
        fields.overlayScale.join
      rw [ProjectFields.usableScale, Bool.and_eq_true] at hscale
      exact {
        name_ne := of_decide_eq_true hname
        one_le_width := one_le_getD (by decide) fun w => one_le_of_bind_dots?
        one_le_height := one_le_getD (by decide) fun w hw => by
          rcases Option.or_eq_some_iff.mp hw with hheight | ⟨-, hminHeight⟩
          · exact one_le_of_bind_dots? hheight
          · exact one_le_of_bind_dots? hminHeight
        isFinite_overlayScale := hscale.1
        overlayScale_ne := hscale.2 }
  · cases h

/-- **Saving and loading.** A project comes back from its file just if it is
normal, and a project that was loaded from any text is normal, so it comes back
from its file. Of the factor it is assumed that its text, if it has one, is
read as the same float. -/
theorem read_write_eq_iff_normal :
    (∀ (fresh : Nat → String) (project : Project),
      (project.overlayScale.isFinite = true → ReadsBack project.overlayScale) →
        (read fresh project.write = .ok project ↔ project.Normal)) ∧
      ∀ (fresh fresh' : Nat → String) (text : String) (project : Project),
        read fresh text = .ok project → ReadsBack project.overlayScale →
          read fresh' project.write = .ok project := by
  constructor
  · intro fresh project hback
    exact ⟨normal_of_read, fun h => read_write fresh h (hback h.isFinite_overlayScale)⟩
  · intro fresh fresh' text project h hback
    exact read_write fresh' (normal_of_read h) hback

/-- A project whose texts need every kind of escape, with the least and the
largest sizes and heights. -/
def extremes : Project where
  name := "a \"b\" \\ c\n\u001f\u007f"
  width := 1
  height := 4294967295
  overlayScale := defaultOverlayScale
  layout :=
    [{ id := "", content := .text "寶\t{num}\r\n😀", align := .right, bold := true, size := .large },
     { id := "2", content := .image "" none },
     { id := "2", content := .image "data:image/png;base64,AA==" (some "") },
     { id := "3", content := .spacing Int32.minValue }]
  samples := .ofList [("b", ""), ("a", "\u0000")]

theorem extremes_normal : extremes.Normal :=
  ⟨by decide, by decide, by decide, by decide, by decide⟩

theorem read_write_extremes :
    ReadsBack extremes.overlayScale ∧ extremes.Normal ∧
      read (freshId 0) extremes.write = .ok extremes := by
  have hback : ReadsBack extremes.overlayScale := readsBack_defaultOverlayScale
  have hread := (read_write_eq_iff_normal.1 (freshId 1) extremes fun _ => hback).mpr
    extremes_normal
  exact ⟨hback, extremes_normal,
    read_write_eq_iff_normal.2 (freshId 1) (freshId 0) _ extremes hread hback⟩

end Project

end TicketPress
