import Mathlib.Data.Option.Basic
import TicketPress.Project.Basic
import TicketPress.Proofs.Text.Occurrence

/-!
# Names of exported images

An exported image gets a file name from two texts that nobody checks: the file
name of the image and the identity of its element. The name should stay within
the folder it is exported to, so it should be bare: a stem, a dot and an
extension, without a separator. `exportName?_isBare_iff` says when it is.

The last segment of a path never holds a separator. The identity is not cut to
its last segment, though, where it stands in for a path that ends in a
separator, and a name that is an extension alone loses all of its stem. These
are the two ways in which an exported name fails to be bare.
-/

namespace TicketPress.Project

/-! ## Embedded images -/

/-- A picture that holds the data of an image of a type. -/
def HoldsImage (picture subtype : List Char) : Prop :=
  subtype ≠ [] ∧ (∀ c ∈ subtype, isSubtypeChar c = true) ∧
    ∃ data, data ≠ [] ∧
      picture = "data:image/".toList ++ (subtype ++ (";base64,".toList ++ data))

/-- The type of an image is cut off where it ends, since it holds no
semicolon. -/
theorem embeddedSubtype?_eq_some_iff {picture subtype : List Char} :
    embeddedSubtype? picture = some subtype ↔ HoldsImage picture subtype := by
  constructor
  · intro h
    obtain ⟨rest, hrest, h⟩ := Option.bind_eq_some_iff.mp h
    obtain ⟨⟨found, data⟩, hbreak, h⟩ := Option.bind_eq_some_iff.mp h
    obtain ⟨_, hguard, h⟩ := Option.bind_eq_some_iff.mp h
    obtain rfl : found = subtype := Option.some.inj h
    obtain ⟨hsubtype, hchars, hdata⟩ := (Option.guard_eq_some' _).mp hguard
    refine ⟨hsubtype, List.all_eq_true.mp hchars, data, hdata, ?_⟩
    rw [Text.dropPrefix?_eq_some_iff.mp hrest, Text.eq_of_breakOn hbreak, List.append_assoc]
  · rintro ⟨hsubtype, hchars, data, hdata, rfl⟩
    have hsemicolon : ';' ∉ subtype := fun hmem => absurd (hchars ';' hmem) (by decide)
    have hprefix : ∀ rest, Text.dropPrefix? "data:image/".toList ("data:image/".toList ++ rest) =
        some rest := fun rest => Text.dropPrefix?_eq_some_iff.mpr rfl
    have hbreak : Text.breakOn ";base64,".toList (subtype ++ (";base64,".toList ++ data)) =
        some (subtype, data) := Text.breakOn_of_not_mem hsemicolon _ data
    have hall : subtype.all isSubtypeChar = true := List.all_eq_true.mpr hchars
    have hguard : (guard (subtype ≠ [] ∧ subtype.all isSubtypeChar = true ∧ data ≠ []) :
        Option Unit) = some () := (Option.guard_eq_some' ()).mpr ⟨hsubtype, hall, hdata⟩
    simp only [embeddedSubtype?, hprefix, hbreak, Option.bind_eq_bind, Option.bind_some, hguard]
    rfl

/-! ## Segments and stems -/

/-- The last segment of a path holds no separator of either kind. -/
theorem not_mem_lastSegment (path : List Char) :
    '/' ∉ lastSegment path ∧ '\\' ∉ lastSegment path := by
  have hkept : ∀ c ∈ lastSegment path, (c ≠ '/' && c ≠ '\\') = true := by
    intro c hc
    exact List.all_eq_true.mp List.all_takeWhile c (List.mem_reverse.mp hc)
  exact ⟨fun h => absurd (hkept '/' h) (by decide), fun h => absurd (hkept '\\' h) (by decide)⟩

/-- The extension of a name is what stands behind its last dot, if that is
something; the stem is what stands before the dot. -/
theorem stem_append {extension : List Char} (hne : extension ≠ []) (hdot : '.' ∉ extension)
    (front : List Char) : stem (front ++ '.' :: extension) = front := by
  have hbreak : Text.breakOn ['.'] (front ++ '.' :: extension).reverse =
      some (extension.reverse, front.reverse) :=
    Text.breakOn_singleton_eq_some_iff.mpr ⟨by simp, by simpa using hdot⟩
  obtain ⟨c, more, hreverse⟩ := List.exists_cons_of_ne_nil (List.reverse_ne_nil_iff.mpr hne)
  rw [stem, hbreak, hreverse]
  exact List.reverse_reverse front

/-- A name is its stem alone, or it has an extension. -/
theorem stem_cases (name : List Char) :
    stem name = name ∨ ∃ front extension, extension ≠ [] ∧ '.' ∉ extension ∧
      name = front ++ '.' :: extension := by
  unfold stem
  split
  · rename_i c more before hbreak
    obtain ⟨hname, hdot⟩ := Text.breakOn_singleton_eq_some_iff.mp hbreak
    refine Or.inr ⟨before.reverse, (c :: more).reverse, by simp,
      fun hmem => hdot (List.mem_reverse.mp hmem), ?_⟩
    rw [← List.reverse_inj, hname]
    simp
  · exact Or.inl rfl

theorem stem_isPrefix (name : List Char) : stem name <+: name := by
  rcases stem_cases name with hself | ⟨front, extension, hne, hdot, rfl⟩
  · rw [hself]
  · rw [stem_append hne hdot]
    exact List.prefix_append _ _

/-- A name that begins with its only dot and goes on behind it: all of it is
extension. -/
def OnlyExtension (name : List Char) : Prop :=
  name.head? = some '.' ∧ name.tail ≠ [] ∧ '.' ∉ name.tail

instance (name : List Char) : Decidable (OnlyExtension name) :=
  inferInstanceAs (Decidable (_ ∧ _ ∧ _))

/-- Nothing is left of a name just if it is an extension alone. -/
theorem stem_eq_nil_iff {name : List Char} (h : name ≠ []) :
    stem name = [] ↔ OnlyExtension name := by
  constructor
  · intro hnil
    rcases stem_cases name with hself | ⟨front, extension, hne, hdot, rfl⟩
    · exact absurd (hself.symm.trans hnil) h
    · obtain rfl : front = [] := (stem_append hne hdot front).symm.trans hnil
      exact ⟨rfl, hne, hdot⟩
  · rintro ⟨hhead, hne, hdot⟩
    obtain ⟨extension, rfl⟩ := List.head?_eq_some_iff.mp hhead
    exact stem_append hne hdot []

/-! ## Bare names -/

/-- The extensions that exported images can have. -/
def exportExtensions : List String := ["jpg", "png", "bmp", "gif", "bin"]

theorem extensionOf_mem (subtype : List Char) : extensionOf subtype ∈ exportExtensions := by
  unfold extensionOf
  split <;> decide

theorem of_mem_exportExtensions {extension : String} (h : extension ∈ exportExtensions) :
    extension.toList ≠ [] ∧ '.' ∉ extension.toList ∧ '/' ∉ extension.toList ∧
      '\\' ∉ extension.toList := by
  have hall : ∀ extension ∈ exportExtensions, extension.toList ≠ [] ∧ '.' ∉ extension.toList ∧
      '/' ∉ extension.toList ∧ '\\' ∉ extension.toList := by decide
  exact hall extension h

/-- A name that leads nowhere but into the folder at hand: a stem, a dot and one
of the extensions, and no separator. -/
structure IsBare (name : List Char) : Prop where
  form : ∃ front, front ≠ [] ∧ ∃ extension ∈ exportExtensions,
    name = front ++ '.' :: extension.toList
  slash : '/' ∉ name
  backslash : '\\' ∉ name

/-- A name that is put together of a stem and an extension is bare if there is
a stem and it holds no separator. -/
theorem isBare_append_iff {front : List Char} {extension : String}
    (h : extension ∈ exportExtensions) :
    IsBare (front ++ '.' :: extension.toList) ↔ front ≠ [] ∧ '/' ∉ front ∧ '\\' ∉ front := by
  obtain ⟨hne, hdot, hslash, hbackslash⟩ := of_mem_exportExtensions h
  constructor
  · rintro ⟨⟨front', hfront', extension', hmem', hname⟩, hs, hb⟩
    obtain ⟨hne', hdot', -, -⟩ := of_mem_exportExtensions hmem'
    -- Two ways to put the name together have the same stem.
    have hsame : front = front' := by
      rw [← stem_append hne hdot front, hname, stem_append hne' hdot']
    exact ⟨hsame ▸ hfront', fun hmem => hs (List.mem_append_left _ hmem),
      fun hmem => hb (List.mem_append_left _ hmem)⟩
  · rintro ⟨hfront, hs, hb⟩
    exact ⟨⟨front, hfront, extension, h, rfl⟩, by simp [hs, hslash], by simp [hb, hbackslash]⟩

/-! ## Exported names -/

/-- The name made of the identity of an element. -/
def ownName (element : Element) : List Char := ("img_" ++ element.id).toList

/-- The path the name of an image is taken from: its file name, or its own name
if it has none. -/
def exportPath (element : Element) : List Char :=
  match element.content with
  | .image _ (some fileName) => if fileName = "" then ownName element else fileName.toList
  | _ => ownName element

/-- The name whose stem an image is exported under. -/
def exportSegment (element : Element) : List Char :=
  if lastSegment (exportPath element) = [] then ownName element
  else lastSegment (exportPath element)

theorem exportSegment_ne_nil (element : Element) : exportSegment element ≠ [] := by
  unfold exportSegment
  split
  · simp [ownName]
  · assumption

/-- The name of an exported image, taken apart. -/
theorem exportName?_eq_some_iff {element : Element} {name : String} :
    exportName? element = some name ↔
      ∃ picture fileName subtype, element.content = .image picture fileName ∧
        HoldsImage picture.toList subtype ∧
        name.toList = stem (exportSegment element) ++ '.' :: (extensionOf subtype).toList := by
  unfold exportName?
  cases hcontent : element.content with
  | text _ => simp
  | spacing _ => simp
  | image picture fileName =>
      have hpath : ((fileName.filter (· ≠ "")).getD ("img_" ++ element.id)).toList =
          exportPath element := by
        cases fileName with
        | none => simp [exportPath, hcontent, ownName]
        | some file =>
            by_cases hempty : file = ""
            · simp [exportPath, hcontent, hempty, ownName, Option.filter]
            · simp [exportPath, hcontent, hempty, Option.filter]
      have hname : ∀ subtype, name.toList =
          stem (exportSegment element) ++ '.' :: (extensionOf subtype).toList ↔
          String.ofList (stem (exportSegment element)) ++ "." ++ extensionOf subtype = name := by
        intro subtype
        rw [← String.toList_inj, eq_comm]
        simp
      simp only [Option.bind_eq_bind, Option.bind_eq_some_iff, hpath,
        embeddedSubtype?_eq_some_iff]
      constructor
      · rintro ⟨subtype, hholds, hgiven⟩
        exact ⟨picture, fileName, subtype, rfl, hholds, (hname subtype).mpr (Option.some.inj hgiven)⟩
      · rintro ⟨picture', fileName', subtype, hsame, hholds, hgiven⟩
        obtain ⟨rfl, rfl⟩ : picture = picture' ∧ fileName = fileName' := by simpa using hsame
        exact ⟨subtype, hholds, congrArg some ((hname subtype).mp hgiven)⟩

/-- The path of an image ends in a separator, and the name that takes its place
holds a separator before its extension. -/
def KeepsSeparator (element : Element) : Prop :=
  lastSegment (exportPath element) = [] ∧
    ('/' ∈ stem (ownName element) ∨ '\\' ∈ stem (ownName element))

instance (element : Element) : Decidable (KeepsSeparator element) :=
  inferInstanceAs (Decidable (_ ∧ (_ ∨ _)))

theorem stem_exportSegment_eq_nil_iff (element : Element) :
    stem (exportSegment element) = [] ↔ OnlyExtension (lastSegment (exportPath element)) := by
  rw [stem_eq_nil_iff (exportSegment_ne_nil element)]
  by_cases hlast : lastSegment (exportPath element) = []
  · have hown : ¬ OnlyExtension (ownName element) := by
      rintro ⟨hhead, -, -⟩
      simp [ownName] at hhead
    have hnil : ¬ OnlyExtension [] := by decide
    rw [exportSegment, if_pos hlast, hlast]
    exact iff_of_false hown hnil
  · rw [exportSegment, if_neg hlast]

theorem separator_mem_stem_exportSegment_iff (element : Element) :
    '/' ∈ stem (exportSegment element) ∨ '\\' ∈ stem (exportSegment element) ↔
      KeepsSeparator element := by
  by_cases hlast : lastSegment (exportPath element) = []
  · rw [exportSegment, if_pos hlast, KeepsSeparator]
    simp only [hlast, true_and]
  · obtain ⟨hslash, hbackslash⟩ := not_mem_lastSegment (exportPath element)
    have hin := (stem_isPrefix (lastSegment (exportPath element))).subset
    rw [exportSegment, if_neg hlast, KeepsSeparator]
    simp only [hlast, false_and, iff_false, not_or]
    exact ⟨fun hmem => hslash (hin hmem), fun hmem => hbackslash (hin hmem)⟩

/-- An element has an exported name exactly if it is an image whose picture holds
the data of an image. The name has one of the extensions in any case. It is bare
unless the last segment of the path is an extension alone, or the path ends in a
separator and the name made of the identity holds one. -/
theorem exportName?_isBare_iff (element : Element) :
    ((exportName? element).isSome = true ↔ ∃ picture fileName subtype,
      element.content = .image picture fileName ∧ HoldsImage picture.toList subtype) ∧
    ∀ name, exportName? element = some name →
      (∃ front, ∃ extension ∈ exportExtensions, name.toList = front ++ '.' :: extension.toList) ∧
      (IsBare name.toList ↔
        ¬ OnlyExtension (lastSegment (exportPath element)) ∧ ¬ KeepsSeparator element) := by
  constructor
  · rw [Option.isSome_iff_exists]
    constructor
    · rintro ⟨name, hname⟩
      obtain ⟨picture, fileName, subtype, hcontent, hholds, -⟩ := exportName?_eq_some_iff.mp hname
      exact ⟨picture, fileName, subtype, hcontent, hholds⟩
    · rintro ⟨picture, fileName, subtype, hcontent, hholds⟩
      exact ⟨_, exportName?_eq_some_iff.mpr
        ⟨picture, fileName, subtype, hcontent, hholds, String.toList_ofList⟩⟩
  · intro name hname
    obtain ⟨-, -, subtype, -, -, hform⟩ := exportName?_eq_some_iff.mp hname
    have hextension := extensionOf_mem subtype
    refine ⟨⟨_, _, hextension, hform⟩, ?_⟩
    rw [hform, isBare_append_iff hextension, ← stem_exportSegment_eq_nil_iff,
      ← separator_mem_stem_exportSegment_iff, not_or]

/-- An image with a path for another system, in an element whose identity holds
a separator. -/
def logo : Element where
  content := .image "data:image/x-ms-bmp;base64,Qk0=" (some "C:\\logos\\logo.v2.bin")
  id := "a/b"

theorem exportName?_logo :
    exportName? logo = some "logo.v2.bmp" ∧ IsBare "logo.v2.bmp".toList := by
  have hname : exportName? logo = some "logo.v2.bmp" := by decide +kernel
  exact ⟨hname, ((exportName?_isBare_iff logo).2 _ hname).2.mpr ⟨by decide, by decide⟩⟩

/-- An image in an element whose identity holds a separator. -/
def imageOf (fileName : Option String) : Element where
  content := .image "data:image/png;base64,AA==" fileName
  id := "a/b"

/-- If the path ends in a separator the name leads into another folder, though
the same identity is cut to its last segment if there is no path. A file name
that is an extension alone leaves no stem. -/
theorem exportName?_leaves_folder :
    (exportName? (imageOf (some "logos/")) = some "img_a/b.png" ∧
      ¬ IsBare "img_a/b.png".toList) ∧
    exportName? (imageOf none) = some "b.png" ∧
    (exportName? (imageOf (some ".png")) = some ".png" ∧ ¬ IsBare ".png".toList) := by
  have hfolder : exportName? (imageOf (some "logos/")) = some "img_a/b.png" := by decide +kernel
  have hnone : exportName? (imageOf none) = some "b.png" := by decide +kernel
  have hdot : exportName? (imageOf (some ".png")) = some ".png" := by decide +kernel
  refine ⟨⟨hfolder, fun hbare => absurd hbare.slash (by decide)⟩, hnone, hdot, fun hbare => ?_⟩
  have hpng : "png" ∈ exportExtensions := by decide
  have hstem : ([] : List Char) ≠ [] ∧ '/' ∉ [] ∧ '\\' ∉ [] := (isBare_append_iff hpng).mp hbare
  exact hstem.1 rfl

end TicketPress.Project
