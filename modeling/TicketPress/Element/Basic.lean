/-!
# The elements of a ticket

A ticket is laid out as a list of elements, printed from first to last. An
element is a piece of content in a style. Every element carries the whole
style, also where it cannot show, so that the style of the printer can be
followed through images and spacing.

What an element is and which one it is are kept apart: an `Item` is the first,
and an `Element` is an item with an identity. Two layouts are the same up to
identities when their items are the same.
-/

namespace TicketPress

/-- Where an element stands between the margins. -/
inductive Alignment where
  | left
  | center
  | right
  deriving Repr, DecidableEq

/-- The size of the characters. -/
inductive FontSize where
  | normal
  | large
  deriving Repr, DecidableEq

/-- The content of an element. -/
inductive Content where
  /-- Text to print; it may hold line feeds and `{name}` placeholders. -/
  | text (content : String)
  /-- An image from a file, with the picture for a preview or nothing. -/
  | image (picture : String) (fileName : Option String)
  /-- Paper moved by a number of dots: forward if positive, back if negative,
  so that what follows is printed over what came before. -/
  | spacing (height : Int32)
  deriving Repr, DecidableEq

/-- An element without its identity. -/
structure Item where
  content : Content
  align : Alignment := .left
  bold : Bool := false
  size : FontSize := .normal
  deriving Repr, DecidableEq

/-- An element of a ticket. -/
structure Element extends Item where
  id : String
  deriving Repr, DecidableEq

/-- The item as the element with an identity. -/
def Item.named (item : Item) (id : String) : Element := { item with id }

@[simp] theorem Item.toItem_named (item : Item) (id : String) :
    (item.named id).toItem = item := rfl

/-- The items as elements with identities, the `n`-th with the `n`-th one. -/
def Item.nameAll (fresh : Nat → String) (items : List Item) : List Element :=
  items.mapIdx fun n item => item.named (fresh n)

/-- The items of a layout. -/
def items (layout : List Element) : List Item := layout.map Element.toItem

@[simp] theorem items_nameAll (fresh : Nat → String) (list : List Item) :
    items (Item.nameAll fresh list) = list := by
  induction list generalizing fresh with
  | nil => rfl
  | cons item list ih =>
    have hrest := ih fun n => fresh (n + 1)
    simp only [items, Item.nameAll] at hrest ⊢
    simp [List.mapIdx_cons, hrest]

/-! ## Kinds -/

/-- The kinds of content. -/
inductive Kind where
  | text
  | image
  | spacing
  deriving Repr, DecidableEq

/-- The kind of a content. -/
def Content.kind : Content → Kind
  | .text _ => .text
  | .image .. => .image
  | .spacing _ => .spacing

/-- The height of a spacing that gives none. -/
def defaultHeight : Int32 := 24

/-- The content a new element of the kind starts with. -/
def Kind.initialContent : Kind → Content
  | .text => .text "新文字項目"
  | .image => .image "" (some "logo.bin")
  | .spacing => .spacing defaultHeight

/-! ## What a kind has -/

/-- The height of a spacing. -/
def Content.height? : Content → Option Int32
  | .spacing height => some height
  | _ => none

/-- Whether the content moves the paper back. -/
def Content.isOverlay (content : Content) : Bool := content.height?.any (· < 0)

/-- The text of a text. -/
def Content.text? : Content → Option String
  | .text content => some content
  | _ => none

/-- The file an image without a file name is loaded from. -/
def fallbackFile : String := "image.bin"

/-- The file an image is loaded from: its own, unless that has no name. -/
def loadName : Option String → String
  | none => fallbackFile
  | some name => if name = "" then fallbackFile else name

/-- The file an image is loaded from. -/
def Content.file? : Content → Option String
  | .image _ fileName => some (loadName fileName)
  | _ => none

/-! ## Identities -/

/-- The number of identities of a series. -/
def freshIdCount : Nat := Nat.pow 16 12

/-- The `n`-th identity of a series: twelve hexadecimal digits, no two of them
equal within `freshIdCount` steps. -/
def freshId (series n : Nat) : String :=
  let digits := Nat.toDigits 16 ((series + n) % freshIdCount)
  String.ofList (List.replicate (12 - digits.length) '0' ++ digits)

end TicketPress
