import TicketPress.Element.Basic
import TicketPress.Json.Decode
import TicketPress.Json.Writer

/-!
# Elements in documents

An element is written as one flat object: its identity, its kind, the fields
of its kind and its style. Reading is lenient: fields may come in any order,
all but the kind may be left out, and a field of another kind is passed over.
The fields of the style are asked for where they stand, those of the kind at
the end of the object, when the kind is known.
-/

namespace TicketPress

open Json (Value Draft Members Items Answer ShapeError)

/-! ## Words -/

/-- The words for the alignments. -/
def Alignment.words : List (String × Alignment) :=
  [("left", .left), ("center", .center), ("right", .right)]

/-- The word for an alignment. -/
def Alignment.word : Alignment → String
  | .left => "left"
  | .center => "center"
  | .right => "right"

/-- The words for the sizes. -/
def FontSize.words : List (String × FontSize) := [("normal", .normal), ("large", .large)]

/-- The word for a size. -/
def FontSize.word : FontSize → String
  | .normal => "normal"
  | .large => "large"

/-- The words for the kinds. -/
def Kind.words : List (String × Kind) :=
  [("text", .text), ("image", .image), ("spacing", .spacing)]

/-- The word for a kind. -/
def Kind.word : Kind → String
  | .text => "text"
  | .image => "image"
  | .spacing => "spacing"

/-- The alignment a word means. -/
@[simp] theorem Alignment.variant_word (a : Alignment) :
    Json.variant Alignment.words a.word = .ok a := by cases a <;> rfl

/-- The size a word means. -/
@[simp] theorem FontSize.variant_word (s : FontSize) :
    Json.variant FontSize.words s.word = .ok s := by cases s <;> rfl

/-- The kind a word means. -/
@[simp] theorem Kind.variant_word (k : Kind) :
    Json.variant Kind.words k.word = .ok k := by cases k <;> rfl

/-! ## Writing -/

/-- The kind of a content and the fields of the kind. -/
def Content.members (content : Content) : List (String × Value) :=
  ("type", .text content.kind.word) ::
    match content with
    | .text written => [("content", .text written)]
    | .image picture none => [("content", .text picture)]
    | .image picture (some file) => [("content", .text picture), ("variableName", .text file)]
    | .spacing height => [("spacingHeight", .number (.integer height.toInt))]

/-- A content as a document of its own. -/
def Content.encode (content : Content) : Value := .object content.members

/-- An element as a document. -/
def Element.encode (element : Element) : Value :=
  .object (("id", .text element.id) :: (element.content.members ++
    [("align", .text element.align.word),
     ("isBold", .boolean element.bold),
     ("size", .text element.size.word)]))

/-- A layout as a document. -/
def encodeLayout (layout : List Element) : Value := .array (layout.map Element.encode)

/-- A layout as a text spread over lines. -/
def writeLayout (layout : List Element) : String := (encodeLayout layout).writePretty

/-! ## Reading the fields of a kind -/

/-- A value that must be a text. -/
def asText : Value → Except ShapeError String
  | .text text => .ok text
  | value => .error (.wrongType value.found "a string")

/-- A value that must be a text or `null`. -/
def asOptionalText : Value → Except ShapeError (Option String)
  | .null => .ok none
  | value => (asText value).map some

/-- A value that must be an integer of 32 bits. -/
def asHeight : Value → Except ShapeError Int32
  | .number n =>
    (n.asInteger Int32.minValue.toInt Int32.maxValue.toInt "i32").map Int32.ofInt
  | value => .error (.wrongType value.found "i32")

/-- A value that must name a kind, by its word or by its place among the
kinds. -/
def asKind : Value → Except ShapeError Kind
  | .text word => Json.variant Kind.words word
  | .number (.integer i) =>
    if i < 0 then .error (.wrongType (.integer i) "variant identifier")
    else
      match Kind.words[i.toNat]? with
      | some (_, kind) => .ok kind
      | none => .error (.wrongValue (.integer i) "variant index 0 <= i < 3")
  | value => .error (.wrongType value.found "variant identifier")

/-- The value of the field `name`, if it is among the members; a second value
of it is refused. The members are asked in their order. -/
def pick {α : Type} (name : String) (ask : Value → Except ShapeError α) :
    (found : Option α) → List (String × Value) → Except ShapeError (Option α)
  | found, [] => .ok found
  | found, (key, value) :: members =>
    if key = name then
      match found with
      | some _ => .error (.duplicateField name)
      | none => do pick name ask (some (← ask value)) members
    else pick name ask found members

/-- The picture and the file name of an image, asked in the order of the
members. -/
def pickImage : (picture : Option String) → (file : Option (Option String)) →
    List (String × Value) → Except ShapeError (Option String × Option (Option String))
  | picture, file, [] => .ok (picture, file)
  | picture, file, (key, value) :: members =>
    if key = "content" then
      match picture with
      | some _ => .error (.duplicateField "content")
      | none => do pickImage (some (← asText value)) file members
    else if key = "variableName" then
      match file with
      | some _ => .error (.duplicateField "variableName")
      | none => do pickImage picture (some (← asOptionalText value)) members
    else pickImage picture file members

/-- The content of a kind from the members of an object. -/
def Content.ofMembers (members : List (String × Value)) : Kind → Except ShapeError Content
  | .text => do return .text ((← pick "content" asText none members).getD "")
  | .image => do
    let (picture, file) ← pickImage none none members
    return .image (picture.getD "") (file.getD none)
  | .spacing => do
    return .spacing ((← pick "spacingHeight" asHeight none members).getD defaultHeight)

/-- After the last field of a kind written as an array of `total` items. -/
def noMore (total : Nat) (expected : String) : List Value → Except ShapeError Unit
  | [] => .ok ()
  | _ :: _ => .error (.wrongLength total expected)

/-- The content of a kind from the items of an array, in the order of the
fields. -/
def Content.ofItems (items : List Value) : Kind → Except ShapeError Content
  | .text => do
    let written ← items.head?.elim (.ok "") asText
    noMore items.length "1 element in sequence" (items.drop 1)
    return .text written
  | .image => do
    let picture ← items[0]?.elim (.ok "") asText
    let file ← items[1]?.elim (.ok none) asOptionalText
    noMore items.length "2 elements in sequence" (items.drop 2)
    return .image picture file
  | .spacing => do
    let height ← items.head?.elim (.ok defaultHeight) asHeight
    noMore items.length "1 element in sequence" (items.drop 1)
    return .spacing height

/-! ## Reading an element -/

/-- What has been met of an element. -/
structure ElementFields where
  id : Option String := none
  align : Option Alignment := none
  bold : Option Bool := none
  size : Option FontSize := none
  /-- The members that belong to the kind or to nothing, last first. -/
  others : List (String × Value) := []

/-- A member of an element, at the depth inside the element. -/
def ElementFields.step (depth : Nat) (fields : ElementFields) (name : String) (draft : Draft) :
    Answer ElementFields :=
  match name with
  | "id" => do return { fields with id := ← Json.fill name fields.id (draft.asText "a string") }
  | "align" => do
    return { fields with
      align := ← Json.fill name fields.align (draft.asVariant Alignment.words depth) }
  | "isBold" => do return { fields with bold := ← Json.fill name fields.bold draft.asBoolean }
  | "size" => do
    return { fields with
      size := ← Json.fill name fields.size (draft.asVariant FontSize.words depth) }
  | _ => do
    return { fields with others := (name, ← Answer.lift (draft.value depth)) :: fields.others }

/-- The item the fields make up, with its identity if one was given. -/
def ElementFields.finish (fields : ElementFields) : Except ShapeError (Option String × Item) := do
  let members := fields.others.reverse
  match ← pick "type" asKind none members with
  | none => .error (.missingField "type")
  | some kind =>
    let content ← Content.ofMembers members kind
    return (fields.id,
      { content
        align := fields.align.getD .left
        bold := fields.bold.getD false
        size := fields.size.getD .normal })

/-- An element of a document, with its identity if it has one. -/
def Item.ask (depth : Nat) : Draft → Answer (Option String × Item)
  | .object members => do
    let inner ← Answer.lift (Json.enter depth)
    let fields ← members.collect (ElementFields.step inner) {}
    Answer.ofShape fields.finish
  | draft => draft.mismatch "struct TicketElement"

/-- Items as elements: those without an identity get one, by their place. -/
def Element.nameAll (fresh : Nat → String) (read : List (Option String × Item)) : List Element :=
  read.mapIdx fun n (id, item) => item.named (id.getD (fresh n))

/-- The elements of an array. -/
def Element.askAll (fresh : Nat → String) (depth : Nat) (draft : Draft) :
    Answer (List Element) :=
  (draft.asList depth Item.ask).map (Element.nameAll fresh)

/-- Reads the text of one element. -/
def Element.read (fresh : Nat → String) (text : String) : Answer Element :=
  (Json.decode Item.ask text).map fun (id, item) => item.named (id.getD (fresh 0))

/-- Reads the text of a layout. -/
def readLayout (fresh : Nat → String) (text : String) : Answer (List Element) :=
  Json.decode (Element.askAll fresh) text

/-! ## Reading a content of its own -/

/-- What has been met of a content: its kind and the other members, last
first. -/
structure ContentFields where
  kind : Option Kind := none
  others : List (String × Value) := []

/-- A member of a content, at the depth inside the content. Here the kind must
be written as a word. -/
def ContentFields.step (depth : Nat) (fields : ContentFields) (name : String) (draft : Draft) :
    Answer ContentFields :=
  match name with
  | "type" => do
    let ask := do
      Answer.ofShape (Json.variant Kind.words (← draft.asText "variant identifier"))
    return { fields with kind := ← Json.fill name fields.kind ask }
  | _ => do
    return { fields with others := (name, ← Answer.lift (draft.value depth)) :: fields.others }

/-- A content: an object of its kind and fields, or an array of its kind and
the values of its fields. -/
def Content.ask (depth : Nat) : Draft → Answer Content
  | .object members => do
    let inner ← Answer.lift (Json.enter depth)
    let fields ← members.collect (ContentFields.step inner) {}
    let kind ← Json.require "type" fields.kind
    Answer.ofShape (Content.ofMembers fields.others.reverse kind)
  | .array items => do
    let inner ← Answer.lift (Json.enter depth)
    match items with
    | .closed => Answer.refuse (.missingField "type")
    | .stopped cause => .error (.broken cause)
    | .item first rest =>
      let word ← first.asText "variant identifier"
      let kind ← Answer.ofShape (Json.variant Kind.words word)
      let values ← Answer.lift (rest.values inner)
      Answer.ofShape (Content.ofItems values kind)
  | draft => draft.mismatch "internally tagged enum ElementKind"

/-- Reads the text of one content. -/
def Content.read (text : String) : Answer Content := Json.decode Content.ask text

end TicketPress
