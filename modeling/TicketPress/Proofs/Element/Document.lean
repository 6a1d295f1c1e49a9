import TicketPress.Element.Document
import TicketPress.Proofs.Json.Draft

/-!
# Reading back layouts

An element is written with all its fields, and what a reader asks of them is
just what they hold, so it is read back whole: `Item.ask_encode`. Its identity
is among the fields, and a layout that is read back takes no fresh one.
-/

namespace TicketPress

open Json (Value Draft Members Items Answer ShapeError)

/-! ## Contents -/

theorem inRange_height (height : Int32) : Json.InRange height.toInt := by
  have hlow := height.minValue_le_toInt
  have hhigh := height.toInt_lt
  have hmin : Int64.minValue.toInt ≤ Int32.minValue.toInt := by decide
  have hmax : (2 : Int) ^ 31 ≤ Json.largest := by decide
  constructor <;> omega

/-- Every member of a content answers with its value, and none is a field of
the style. -/
theorem Content.mem_members {content : Content} {member : String × Value}
    (h : member ∈ content.members) :
    member.1 ∉ ["id", "align", "isBold", "size"] ∧
      ∀ depth, member.2.draft.value depth = .ok member.2 := by
  rcases content with written | ⟨picture, _ | file⟩ | height
  · simp only [members, List.mem_cons, List.not_mem_nil, or_false] at h
    obtain rfl | rfl := h <;> exact ⟨by simp, fun _ => rfl⟩
  · simp only [members, List.mem_cons, List.not_mem_nil, or_false] at h
    obtain rfl | rfl := h <;> exact ⟨by simp, fun _ => rfl⟩
  · simp only [members, List.mem_cons, List.not_mem_nil, or_false] at h
    obtain rfl | rfl | rfl := h <;> exact ⟨by simp, fun _ => rfl⟩
  · simp only [members, List.mem_cons, List.not_mem_nil, or_false] at h
    obtain rfl | rfl := h
    · exact ⟨by simp, fun _ => rfl⟩
    · exact ⟨by simp, Json.value_draft_integer (inRange_height height)⟩

theorem Content.pick_kind (content : Content) :
    pick "type" asKind none content.members = .ok (some content.kind) := by
  rcases content with written | ⟨picture, _ | file⟩ | height <;> rfl

theorem Content.ofMembers_members (content : Content) :
    ofMembers content.members content.kind = .ok content := by
  rcases content with written | ⟨picture, _ | file⟩ | height
  · rfl
  · rfl
  · rfl
  · have hasked : asHeight (.number (.integer height.toInt)) = .ok height := by
      have hrange := And.intro height.minValue_le_toInt height.toInt_le
      simp only [asHeight, Json.Number.asInteger, if_pos hrange, Except.map, Int32.ofInt_toInt]
    simp [ofMembers, kind, members, pick, hasked, Bind.bind, Except.bind, Pure.pure, Except.pure]

/-! ## Elements -/

namespace ElementFields

theorem step_other {depth : Nat} {fields : ElementFields} {name : String} {value : Value}
    (hname : name ∉ ["id", "align", "isBold", "size"])
    (hvalue : value.draft.value depth = .ok value) :
    fields.step depth name value.draft =
      .ok { fields with others := (name, value) :: fields.others } := by
  simp only [List.mem_cons, List.not_mem_nil, or_false, not_or] at hname
  unfold step
  split <;> simp_all [Json.lift_ok, Bind.bind, Except.bind, Pure.pure, Except.pure]

/-- The members of a content are kept for the end, last first. -/
theorem collect_members (depth : Nat) (fields : ElementFields) (members : List (String × Value))
    (h : ∀ member ∈ members, member.1 ∉ ["id", "align", "isBold", "size"] ∧
      ∀ depth, member.2.draft.value depth = .ok member.2) :
    members.foldlM (fun fields member => step depth fields member.1 member.2.draft) fields =
      .ok { fields with others := members.reverse ++ fields.others } := by
  induction members generalizing fields with
  | nil => rfl
  | cons member members ih =>
    obtain ⟨hname, hvalue⟩ := h member List.mem_cons_self
    have hrest := ih { fields with others := member :: fields.others } fun other hmem =>
      h other (List.mem_cons_of_mem member hmem)
    simp only [List.foldlM_cons, step_other hname (hvalue depth), Bind.bind, Except.bind, hrest,
      List.reverse_cons, List.append_assoc, List.singleton_append]

theorem step_align (depth : Nat) (fields : ElementFields) (align : Alignment)
    (h : fields.align = none) :
    fields.step depth "align" (Value.text align.word).draft =
      .ok { fields with align := some align } := by
  have hword := Json.asVariant_draft align.variant_word depth
  simp only [step, h, hword]
  rfl

theorem step_bold (depth : Nat) (fields : ElementFields) (bold : Bool) (h : fields.bold = none) :
    fields.step depth "isBold" (Value.boolean bold).draft =
      .ok { fields with bold := some bold } := by
  simp only [step, h, Json.fill]
  rfl

theorem step_size (depth : Nat) (fields : ElementFields) (size : FontSize)
    (h : fields.size = none) :
    fields.step depth "size" (Value.text size.word).draft =
      .ok { fields with size := some size } := by
  have hword := Json.asVariant_draft size.variant_word depth
  simp only [step, h, hword]
  rfl

end ElementFields

/-- What an element is asked for is its identity and its item. -/
theorem Item.ask_encode (element : Element) {depth : Nat} (hdepth : 1 < depth) :
    Item.ask depth element.encode.draft = .ok (some element.id, element.toItem) := by
  have hid : ElementFields.step (depth - 1) {} "id" (Value.text element.id).draft =
      .ok { id := some element.id } := rfl
  have hmembers := ElementFields.collect_members (depth - 1) { id := some element.id }
    element.content.members fun _ => Content.mem_members
  -- The identity comes first, the members of the content next and the style last.
  simp only [Element.encode, Json.draft_object, Item.ask, Json.enter_of_lt hdepth, Json.lift_ok,
    Json.collect_draftMembers, List.foldlM_cons, List.foldlM_append, List.foldlM_nil, hid,
    hmembers, ElementFields.step_align, ElementFields.step_bold, ElementFields.step_size,
    Bind.bind, Except.bind, Pure.pure, Except.pure]
  simp only [ElementFields.finish, List.append_nil, List.reverse_reverse, Content.pick_kind,
    Content.ofMembers_members, Bind.bind, Except.bind, Pure.pure, Except.pure]
  rfl

theorem Element.nameAll_named (fresh : Nat → String) (layout : List Element) :
    Element.nameAll fresh (layout.map fun element => (some element.id, element.toItem)) =
      layout := by
  induction layout generalizing fresh with
  | nil => rfl
  | cons element layout ih =>
    have hrest := ih fun n => fresh (n + 1)
    simp only [Element.nameAll] at hrest ⊢
    simp only [List.map_cons, List.mapIdx_cons, hrest]
    rfl

/-- A layout is read back, whatever the fresh identities. -/
theorem Element.askAll_encodeLayout (fresh : Nat → String) (layout : List Element) {depth : Nat}
    (hdepth : 2 < depth) : Element.askAll fresh depth (encodeLayout layout).draft = .ok layout := by
  have hlist := Json.asList_draft Item.ask Element.encode
    (fun element => (some element.id, element.toItem)) (by omega) layout
    fun element _ => Item.ask_encode element (by omega : 1 < depth - 1)
  rw [Element.askAll, encodeLayout, hlist, Except.map, Element.nameAll_named]

/-! ## All numbers of a layout are integers -/

theorem Element.legible_encode (element : Element) : element.encode.Legible := by
  rcases element with ⟨⟨written | ⟨picture, _ | file⟩ | height, align, bold, size⟩, id⟩ <;>
    simp [encode, Content.members, Value.Legible, Json.LegibleMembers, Json.Number.legible_integer]

theorem legible_encodeLayout (layout : List Element) : (encodeLayout layout).Legible := by
  have hitems : Json.LegibleItems (layout.map Element.encode) := by
    induction layout with
    | nil => trivial
    | cons element layout ih => exact ⟨element.legible_encode, ih⟩
  exact hitems

end TicketPress
