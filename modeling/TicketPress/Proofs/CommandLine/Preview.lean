import TicketPress.CommandLine.Preview
import TicketPress.Proofs.Placeholder.Filling

/-!
# What a description shows

A description fills in the placeholders of a text and lists the names of those
that have no sample value. The two go by different readings of the text: the
listed names are well-formed, while a sample is filled in whatever its name
looks like. They agree in what a reader relies on: each listed name can be seen
in the text, since no sample value takes its placeholder away.
-/

namespace TicketPress

theorem Project.mem_unresolved_iff {project : Project} {text name : String} :
    name ∈ project.unresolved text ↔
      name.toList ∈ Placeholder.names text.toList ∧ project.samples.contains name = false := by
  simp only [Project.unresolved, List.mem_filter, List.mem_map, Bool.not_eq_eq_eq_not,
    Bool.not_true]
  constructor
  · rintro ⟨⟨found, hfound, rfl⟩, hunbound⟩
    rw [String.toList_ofList]
    exact ⟨hfound, hunbound⟩
  · rintro ⟨hfound, hunbound⟩
    exact ⟨⟨name.toList, hfound, String.ofList_toList⟩, hunbound⟩

namespace CommandLine

open Placeholder Text

/-- A name that is listed without a sample value is seen in the text of the
description: its placeholder stands there as often as in the text of the
element, or more often if it comes from a value as well. -/
theorem unresolved_stays_visible {project : Project} {content : Content} {name : String}
    (hfree : ∀ entry ∈ project.samples.entries, BraceFree entry.1.toList)
    (h : name ∈ unresolvedNames project content) :
    ∃ text, content = .text text ∧
      describedText? project content = some (project.resolve text) ∧
      written name.toList <:+: (project.resolve text).toList ∧
      occurrences (written name.toList) text.toList ≤
        occurrences (written name.toList) (project.resolve text).toList := by
  cases content with
  | image picture fileName => simp [unresolvedNames, Content.text?] at h
  | spacing height => simp [unresolvedNames, Content.text?] at h
  | text text =>
      obtain ⟨hlisted, hunbound⟩ := Project.mem_unresolved_iff.mp h
      obtain ⟨hwell, hstands⟩ := mem_names_iff.mp hlisted
      have hother : ∀ entry ∈ project.samples.entries, entry.1.toList ≠ name.toList := by
        intro entry hentry heq
        exact Bindings.ne_of_contains_eq_false hunbound hentry (String.toList_inj.mp heq)
      have hresolved : (project.resolve text).toList =
          fillInOrder project.samples.entries text.toList := String.toList_ofList
      have hkept := occurrences_le_fillInOrder hwell.braceFree hfree hother text.toList
      rw [← hresolved] at hkept
      have hseen := Nat.lt_of_lt_of_le (occurrences_pos_iff.mpr hstands) hkept
      exact ⟨text, rfl, rfl, occurrences_pos_iff.mp hseen, hkept⟩

/-- A project whose samples make placeholders of their own. -/
def nestedSamples : Project :=
  { Project.initial with samples := .ofList [("num", "5 {who}"), ("typename", "{num}")] }

/-- Filling in leaves one placeholder of the name and makes another one. -/
theorem unresolved_who_stays_visible :
    "who" ∈ unresolvedNames nestedSamples (.text "{num} {who}") ∧
    nestedSamples.resolve "{num} {who}" = "5 {who} {who}" ∧
    written "who".toList <:+: "5 {who} {who}".toList := by
  have hfree : ∀ entry ∈ nestedSamples.samples.entries, BraceFree entry.1.toList := by decide
  have hlisted : "who" ∈ unresolvedNames nestedSamples (.text "{num} {who}") := by
    decide +kernel
  have hresolved : nestedSamples.resolve "{num} {who}" = "5 {who} {who}" := by decide
  obtain ⟨text, hcontent, -, hstands, -⟩ := unresolved_stays_visible hfree hlisted
  obtain rfl : "{num} {who}" = text := Content.text.inj hcontent
  rw [hresolved] at hstands
  exact ⟨hlisted, hresolved, hstands⟩

end CommandLine

end TicketPress
