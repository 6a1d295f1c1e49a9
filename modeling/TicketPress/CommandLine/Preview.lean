import TicketPress.Decimal.Notation
import TicketPress.Element.Document
import TicketPress.Project.Basic

/-!
# Description of a layout

What an element of a project will look like: texts with their placeholders
filled in, images by file name, spacing by its height on paper and in the
preview.
-/

namespace TicketPress.CommandLine

open Json (Value)

/-- The kind of an element as a description names it: a spacing is a feed or,
if it moves the paper back, an overlay. -/
def kindWord (content : Content) : String :=
  match content with
  | .text _ => "text"
  | .image .. => "image"
  | .spacing _ => if content.isOverlay then "overlay" else "feed"

/-- The text of an element in a description: its own with the placeholders
filled in, or the file of an image. -/
def describedText? (project : Project) (content : Content) : Option String :=
  match content with
  | .text written => some (project.resolve written)
  | _ => content.file?

/-- The names of the placeholders of an element that have no sample value. -/
def unresolvedNames (project : Project) (content : Content) : List String :=
  (content.text?.map project.unresolved).getD []

/-! ## As a document -/

/-- A list of texts as a document, if it holds any. -/
def encodeTexts? (texts : List String) : Option Value :=
  if texts = [] then none else some (.array (texts.map .text))

/-- The description of an element as a document. -/
def encodeDescription (project : Project) (element : Element) : Value :=
  let content := element.content
  .sorted
    ([("kind", .text (kindWord content)),
      ("align", .text element.align.word),
      ("isBold", .boolean element.bold),
      ("size", .text element.size.word)] ++
      Json.optionalMember "text" ((describedText? project content).map .text) ++
      Json.optionalMember "height" (content.height?.map fun h => .number (.integer h.toInt)) ++
      Json.optionalMember "previewHeight"
        ((project.previewHeight? content).map fun h => .number (.float h)) ++
      Json.optionalMember "export" ((Project.exportName? element).map .text) ++
      Json.optionalMember "unresolved" (encodeTexts? (unresolvedNames project content)))

/-- The description of a project as a document. -/
def encodePreview (project : Project) : Value :=
  .sorted
    [("name", .text project.name),
     ("width", .ofNat project.width.toNat),
     ("height", .ofNat project.height.toNat),
     ("elements", .array (project.layout.map (encodeDescription project)))]

/-! ## As lines -/

/-- The magnitude of a float, rounded to a whole number. -/
def wholeText (x : Float) : String :=
  match Decimal.Binary.of? x with
  | some parts => String.ofList (Decimal.write parts.nearestWhole)
  | none => if x.isNaN then "NaN" else "inf"

/-- The style of an element in words. -/
def styleText (element : Element) : String :=
  element.align.word ++ (if element.bold then " bold" else "") ++
    match element.size with
    | .large => " large"
    | .normal => ""

/-- A text on one line. -/
def onOneLine (text : String) : String :=
  String.ofList (text.toList.map fun c => if c = '\n' then '⏎' else c)

/-- The description of an element on one line. -/
def describe (project : Project) (element : Element) : String :=
  let styled := kindWord element.content ++ " " ++ styleText element
  match element.content with
  | .spacing height =>
    if height < 0 then
      "[overlay] back " ++ String.ofList (Decimal.write height.toInt.natAbs) ++ " (preview " ++
        wholeText ((project.previewHeight? element.content).getD 0) ++ ")"
    else "[feed] " ++ String.ofList (Decimal.writeInt height.toInt)
  | .image _ fileName =>
    "[" ++ styled ++ "] " ++ loadName fileName ++
      match Project.exportName? element with
      | some name => " (embedded, exports as " ++ name ++ ")"
      | none => ""
  | .text written =>
    let missing := project.unresolved written
    "[" ++ styled ++ "] " ++ onOneLine (project.resolve written) ++
      if missing = [] then "" else " (no sample for " ++ ", ".intercalate missing ++ ")"

/-- The description of a project on lines. -/
def previewLines (project : Project) : List String :=
  (project.name ++ " (" ++ String.ofList (Decimal.write project.width.toNat) ++ "×" ++
      String.ofList (Decimal.write project.height.toNat) ++ ")") ::
    if project.layout = [] then ["  (empty ticket)"]
    else project.layout.map fun element => "  " ++ describe project element

end TicketPress.CommandLine
