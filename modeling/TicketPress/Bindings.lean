import TicketPress.Json.Decode

/-!
# Names bound to texts

A `Bindings` holds at most one text per name, in the order of the names. The
order is part of the type, so two bindings with the same texts under the same
names are equal, and what is written from them comes out sorted.
-/

namespace TicketPress

/-- A text bound to a name in a list of bindings; an earlier binding of the
name gives way. -/
def bind (name text : String) : List (String × String) → List (String × String)
  | [] => [(name, text)]
  | entry :: entries =>
    if name < entry.1 then (name, text) :: entry :: entries
    else if name = entry.1 then (name, text) :: entries
    else entry :: bind name text entries

theorem mem_bind {name text : String} {entry : String × String}
    {entries : List (String × String)} (h : entry ∈ bind name text entries) :
    entry = (name, text) ∨ entry ∈ entries := by
  induction entries with
  | nil => simpa [bind] using h
  | cons first entries ih =>
    simp only [bind] at h
    split at h
    · simpa using h
    · split at h
      · simp only [List.mem_cons] at h ⊢
        rcases h with h | h <;> simp [h]
      · simp only [List.mem_cons] at h ⊢
        rcases h with h | h
        · simp [h]
        · rcases ih h with h | h <;> simp [h]

/-- Binding a name keeps the order. -/
theorem pairwise_bind {name text : String} {entries : List (String × String)}
    (h : entries.Pairwise fun a b => a.1 < b.1) :
    (bind name text entries).Pairwise fun a b => a.1 < b.1 := by
  induction entries with
  | nil => simp [bind]
  | cons first entries ih =>
    obtain ⟨hfirst, hrest⟩ := List.pairwise_cons.mp h
    simp only [bind]
    split
    · rename_i hlt
      refine List.pairwise_cons.mpr ⟨fun entry hmem => ?_, h⟩
      rcases List.mem_cons.mp hmem with rfl | hmem
      · exact hlt
      · exact String.lt_trans hlt (hfirst entry hmem)
    · split
      · rename_i heq
        exact List.pairwise_cons.mpr ⟨fun entry hmem => heq ▸ hfirst entry hmem, hrest⟩
      · rename_i hlt heq
        refine List.pairwise_cons.mpr ⟨fun entry hmem => ?_, ih hrest⟩
        rcases mem_bind hmem with rfl | hmem
        · grind
        · exact hfirst entry hmem

/-- Names bound to texts, in the order of the names. -/
structure Bindings where
  entries : List (String × String) := []
  ascending : entries.Pairwise (fun a b => a.1 < b.1) := by simp
  deriving DecidableEq

namespace Bindings

/-- No names. -/
def empty : Bindings := {}

/-- The bindings with the text bound to the name. -/
def insert (b : Bindings) (name text : String) : Bindings where
  entries := bind name text b.entries
  ascending := pairwise_bind b.ascending

/-- The bindings without the name. -/
def erase (b : Bindings) (name : String) : Bindings where
  entries := b.entries.filter fun entry => entry.1 != name
  ascending := b.ascending.filter _

/-- The text bound to the name. -/
def find? (b : Bindings) (name : String) : Option String := b.entries.lookup name

/-- Whether a text is bound to the name. -/
def contains (b : Bindings) (name : String) : Bool := (b.find? name).isSome

/-- The bindings of a list; of two texts for one name the later one counts. -/
def ofList (entries : List (String × String)) : Bindings :=
  entries.foldl (fun b entry => b.insert entry.1 entry.2) empty

/-- The bindings as the members of an object. -/
def encode (b : Bindings) : Json.Value :=
  .object (b.entries.map fun entry => (entry.1, .text entry.2))

/-- Bindings from an object of texts. -/
def ask (depth : Nat) : Json.Draft → Json.Answer Bindings
  | .object members => do
    let _ ← Json.Answer.lift (Json.enter depth)
    members.collect (fun b name draft => (draft.asText "a string").map (b.insert name)) empty
  | draft => draft.mismatch "a map"

end Bindings

end TicketPress
