import TicketPress.Element.Document
import TicketPress.Project.Basic

/-!
# Projects in documents

A project is written as one object with all its fields. Reading is lenient:
every field but the elements may be left out or `null`, and a value that no
project can have gives way to the default. The height has an older name that
counts when the newer one gives none.
-/

namespace TicketPress

open Json (Value Draft Answer)

/-! ## Writing -/

/-- A project as a document. -/
def Project.encode (project : Project) : Value :=
  .object
    [("name", .text project.name),
     ("width", .ofNat project.width.toNat),
     ("height", .ofNat project.height.toNat),
     ("previewOverlayScale", .number (.float project.overlayScale)),
     ("elements", encodeLayout project.layout),
     ("variables", project.samples.encode)]

/-- A project as the text of a file. -/
def Project.write (project : Project) : String := project.encode.writePretty

/-! ## Reading -/

/-- Why a text is no project. -/
inductive LoadError where
  /-- The text is not JSON, or a part of it has the wrong shape. -/
  | invalid (fault : Json.Fault)
  /-- The document has no elements. -/
  | noElements

/-- The message about a text that is no project; text that is not JSON at all
has none of its own. -/
def LoadError.message : LoadError → String
  | .invalid (.shape error) => "invalid project JSON: " ++ error.message
  | .invalid (.broken _) => "invalid project JSON"
  | .noElements => "unrecognized project format: missing `elements` array"

/-- What has been met of a project; a field that is met may still be `null`. -/
structure ProjectFields where
  name : Option (Option String) := none
  width : Option (Option Float) := none
  height : Option (Option Float) := none
  minHeight : Option (Option Float) := none
  overlayScale : Option (Option Float) := none
  elements : Option (Option (List Element)) := none
  samples : Option (Option Bindings) := none

namespace ProjectFields

/-- A text of a project. -/
def askText : Draft → Answer (Option String) := Draft.asOption (Draft.asText · "a string")

/-- A number of a project. -/
def askFloat : Draft → Answer (Option Float) := Draft.asOption Draft.asFloat

/-- The elements of a project, at the depth inside it. -/
def askElements (fresh : Nat → String) (depth : Nat) : Draft → Answer (Option (List Element)) :=
  Draft.asOption (Element.askAll fresh depth)

/-- The sample values of a project, at the depth inside it. -/
def askSamples (depth : Nat) : Draft → Answer (Option Bindings) :=
  Draft.asOption (Bindings.ask depth)

/-- A member of a project, at the depth inside it. -/
def step (fresh : Nat → String) (depth : Nat) (fields : ProjectFields) (name : String)
    (draft : Draft) : Answer ProjectFields :=
  match name with
  | "name" => do return { fields with name := ← Json.fill name fields.name (askText draft) }
  | "width" => do return { fields with width := ← Json.fill name fields.width (askFloat draft) }
  | "height" => do
    return { fields with height := ← Json.fill name fields.height (askFloat draft) }
  | "minHeight" => do
    return { fields with minHeight := ← Json.fill name fields.minHeight (askFloat draft) }
  | "previewOverlayScale" => do
    return { fields with overlayScale := ← Json.fill name fields.overlayScale (askFloat draft) }
  | "elements" => do
    return { fields with
      elements := ← Json.fill name fields.elements (askElements fresh depth draft) }
  | "variables" => do
    return { fields with samples := ← Json.fill name fields.samples (askSamples depth draft) }
  | _ => do
    draft.ignore
    return fields

/-- What a project written as an array has to hold. -/
def expectedItems : String := "struct RawProject with 7 elements"

/-- The fields of a project in a document: an object, or an array of all
fields in their order. -/
def ask (fresh : Nat → String) (depth : Nat) : Draft → Answer ProjectFields
  | .object members => do
    let inner ← Answer.lift (Json.enter depth)
    members.collect (step fresh inner) {}
  | .array items => do
    let inner ← Answer.lift (Json.enter depth)
    let (name, items) ← items.takeField 0 expectedItems askText
    let (width, items) ← items.takeField 1 expectedItems askFloat
    let (height, items) ← items.takeField 2 expectedItems askFloat
    let (minHeight, items) ← items.takeField 3 expectedItems askFloat
    let (overlayScale, items) ← items.takeField 4 expectedItems askFloat
    let (elements, items) ← items.takeField 5 expectedItems (askElements fresh inner)
    let (samples, items) ← items.takeField 6 expectedItems (askSamples inner)
    items.finish
    return {
      name := some name
      width := some width
      height := some height
      minHeight := some minHeight
      overlayScale := some overlayScale
      elements := some elements
      samples := some samples }
  | draft => draft.mismatch "struct RawProject"

/-- A number of dots: the whole part of a number from one up, cut to 32 bits. -/
def dots? (x : Float) : Option UInt32 :=
  if x.isFinite ∧ 1.0 ≤ x then some x.toUInt32 else none

/-- A factor that can be used: any number but zero. -/
def usableScale (x : Float) : Bool := x.isFinite && x != 0.0

/-- The project the fields make up. -/
def finish (fields : ProjectFields) : Except LoadError Project :=
  match fields.elements.join with
  | none => .error .noElements
  | some layout =>
    .ok {
      name := (fields.name.join.filter (· ≠ "")).getD Project.loadedName
      width := (fields.width.join.bind dots?).getD Project.defaultWidth
      height := ((fields.height.join.bind dots?).or (fields.minHeight.join.bind dots?)).getD
        Project.defaultHeight
      overlayScale := (fields.overlayScale.join.filter usableScale).getD
        Project.defaultOverlayScale
      layout
      samples := fields.samples.join.getD Project.initialSamples }

end ProjectFields

/-- Reads the text of a project. Elements without an identity get one of the
fresh ones, by their place. -/
def Project.read (fresh : Nat → String) (text : String) : Except LoadError Project :=
  match Json.decode (ProjectFields.ask fresh) text with
  | .ok fields => fields.finish
  | .error fault => .error (.invalid fault)

end TicketPress
