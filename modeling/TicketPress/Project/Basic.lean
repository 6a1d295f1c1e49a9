import TicketPress.Bindings
import TicketPress.Element.Basic
import TicketPress.Script.Basic

/-!
# Projects

A project is a layout with what an editor needs besides it: a name, the size
of the preview, a factor for drawing overlays, and sample values for the
placeholders. None of these reaches the script.
-/

namespace TicketPress

/-- A layout with the settings of its preview. -/
structure Project where
  name : String
  /-- The width of the preview in dots. -/
  width : UInt32
  /-- The height of the preview in dots. -/
  height : UInt32
  /-- The factor for the heights of overlays, in the preview only. -/
  overlayScale : Float
  layout : List Element
  /-- The sample values of the placeholders. -/
  samples : Bindings

namespace Project

/-! ## Defaults -/

/-- The width of a preview that gives none. -/
def defaultWidth : UInt32 := 270

/-- The height of a preview that gives none. -/
def defaultHeight : UInt32 := 800

/-- The factor for overlays of a project that gives none. -/
def defaultOverlayScale : Float := 0.775

/-- The name of a new project. -/
def newName : String := "TicketProject"

/-- The name of a project that is read without one. -/
def loadedName : String := "LoadedTicket"

/-- The sample values a new project starts with. -/
def initialSamples : Bindings :=
  .ofList [("typename", "寶特瓶"), ("num", "5"), ("date", "112/11/10")]

/-- A new project. -/
def initial : Project where
  name := newName
  width := defaultWidth
  height := defaultHeight
  overlayScale := defaultOverlayScale
  layout := []
  samples := initialSamples

/-- The project with another layout; all else stays as it is. -/
def withLayout (project : Project) (layout : List Element) : Project := { project with layout }

/-- Whether two projects are the same; of the factors a number that is none
is not even the same as itself. -/
def same (a b : Project) : Bool :=
  a.name == b.name && a.width == b.width && a.height == b.height &&
    a.overlayScale == b.overlayScale && a.layout == b.layout && a.samples == b.samples

/-! ## Preview -/

/-- A text with its placeholders filled in. -/
def resolve (project : Project) (text : String) : String :=
  String.ofList (Placeholder.fill project.samples text.toList)

/-- The names of the placeholders of a text that have no sample value. -/
def unresolved (project : Project) (text : String) : List String :=
  ((Placeholder.names text.toList).map String.ofList).filter fun name =>
    !project.samples.contains name

/-- The height at which a spacing is drawn: an overlay is scaled. -/
def previewHeight? (project : Project) (content : Content) : Option Float :=
  content.height?.map fun height =>
    if height < 0 then height.toFloat * project.overlayScale else height.toFloat

/-! ## Exported images -/

/-- The file extension for a type of image. -/
def extensionOf (subtype : List Char) : String :=
  match String.ofList (Text.lowered subtype) with
  | "jpeg" | "jpg" => "jpg"
  | "png" => "png"
  | "bmp" | "x-ms-bmp" => "bmp"
  | "gif" => "gif"
  | _ => "bin"

/-- A character of the name of an image type. -/
def isSubtypeChar (c : Char) : Bool := c.isAlphanum || c == '.' || c == '-' || c == '+'

/-- The type of an image that is embedded in a picture as base64 data. -/
def embeddedSubtype? (picture : List Char) : Option (List Char) := do
  let rest ← Text.dropPrefix? "data:image/".toList picture
  let (subtype, data) ← Text.breakOn ";base64,".toList rest
  guard (subtype ≠ [] ∧ subtype.all isSubtypeChar ∧ data ≠ [])
  return subtype

/-- The last segment of a path with slashes of either kind. -/
def lastSegment (path : List Char) : List Char :=
  (path.reverse.takeWhile fun c => c ≠ '/' && c ≠ '\\').reverse

/-- A file name without its extension. A dot at the end begins none. -/
def stem (name : List Char) : List Char :=
  match Text.breakOn ['.'] name.reverse with
  | some (_ :: _, before) => before.reverse
  | _ => name

/-- The file name an embedded image is exported under; nothing for an element
without one. An image without a usable name is named for its element. -/
def exportName? (element : Element) : Option String :=
  match element.content with
  | .image picture fileName => do
    let subtype ← embeddedSubtype? picture.toList
    let ownName := "img_" ++ element.id
    let path := (fileName.filter (· ≠ "")).getD ownName
    let last := lastSegment path.toList
    let name := if last = [] then ownName.toList else last
    return String.ofList (stem name) ++ "." ++ extensionOf subtype
  | _ => none

/-! ## Script -/

/-- The script of the layout. -/
def script (project : Project) : List ScriptLine := TicketPress.script project.layout

end Project

end TicketPress
