import Mathlib.Data.List.Sort
import TicketPress.Bindings
import TicketPress.Proofs.Json.Draft

/-!
# Looking up bound names

Bindings are kept in the order of their names, so what they say under each
name is all there is to them: `Bindings.ext_find?`. Every law about setting and
removing names is therefore a law about look-ups, and nothing there has to
follow how a name finds its place in the list. That order is what brings
bindings back from a document: each name is bound after all before it.
-/

namespace TicketPress

/-! ## Look-up in a list -/

theorem lookup_cons_eq_ite (name text key : String) (entries : List (String × String)) :
    ((name, text) :: entries).lookup key =
      if key = name then some text else entries.lookup key := by
  rw [List.lookup_cons]
  by_cases h : key = name
  · simp [h]
  · simp [beq_false_of_ne h, h]

theorem lookup_bind (name text key : String) (entries : List (String × String)) :
    (bind name text entries).lookup key =
      if key = name then some text else entries.lookup key := by
  induction entries with
  | nil => exact lookup_cons_eq_ite name text key []
  | cons entry entries ih =>
      obtain ⟨first, given⟩ := entry
      simp only [bind]
      split
      · exact lookup_cons_eq_ite name text key _
      · split
        · rename_i heq
          subst heq
          simp only [lookup_cons_eq_ite]
          split <;> rfl
        · rename_i hne
          simp only [lookup_cons_eq_ite, ih]
          by_cases hkey : key = first
          · subst hkey
            simp [Ne.symm hne]
          · simp [hkey]

theorem Bindings.find?_insert (b : Bindings) (name text key : String) :
    (b.insert name text).find? key = if key = name then some text else b.find? key :=
  lookup_bind name text key b.entries

/-- In a list of different names an entry is what its name is bound to. -/
theorem lookup_eq_some_iff_mem {entries : List (String × String)}
    (h : entries.Pairwise fun a b => a.1 ≠ b.1) {name text : String} :
    entries.lookup name = some text ↔ (name, text) ∈ entries := by
  constructor
  · intro hlookup
    obtain ⟨before, after, rfl, -⟩ := List.lookup_eq_some_iff.mp hlookup
    simp
  · intro hmem
    obtain ⟨before, after, rfl⟩ := List.append_of_mem hmem
    refine List.lookup_eq_some_iff.mpr ⟨before, after, rfl, ?_⟩
    intro entry hentry
    have hne := (List.pairwise_append.mp h).2.2 entry hentry (name, text) (by simp)
    simpa using Ne.symm hne

/-- What different names are bound to does not depend on their order. -/
theorem lookup_eq_of_perm {order entries : List (String × String)} (hperm : order.Perm entries)
    (h : entries.Pairwise fun a b => a.1 ≠ b.1) (name : String) :
    order.lookup name = entries.lookup name := by
  have horder : order.Pairwise fun a b => a.1 ≠ b.1 :=
    (hperm.pairwise_iff fun hne => Ne.symm hne).mpr h
  apply Option.ext
  intro text
  rw [lookup_eq_some_iff_mem horder, lookup_eq_some_iff_mem h, hperm.mem_iff]

theorem lookup_filter_ne (name key : String) (entries : List (String × String)) :
    (entries.filter fun entry => entry.1 != name).lookup key =
      if key = name then none else entries.lookup key := by
  induction entries with
  | nil => simp
  | cons entry entries ih =>
      obtain ⟨first, given⟩ := entry
      by_cases hfirst : first = name
      · subst hfirst
        rw [List.filter_cons_of_neg (by simp), ih, lookup_cons_eq_ite]
        split <;> rfl
      · rw [List.filter_cons_of_pos (by simpa using hfirst), lookup_cons_eq_ite, ih,
          lookup_cons_eq_ite]
        by_cases hkey : key = first
        · subst hkey
          simp [hfirst]
        · simp [hkey]

/-! ## Bindings by their look-ups -/

namespace Bindings

/-- The names are different. -/
theorem distinct (b : Bindings) : b.entries.Pairwise fun x y => x.1 ≠ y.1 := by
  refine b.ascending.imp ?_
  intro x y hlt heq
  exact String.lt_irrefl y.1 (heq ▸ hlt)

/-- Bindings that say the same under every name are the same. -/
theorem ext_find? {a b : Bindings} (h : ∀ key, a.find? key = b.find? key) : a = b := by
  have hmem : ∀ entry, entry ∈ a.entries ↔ entry ∈ b.entries := by
    rintro ⟨name, text⟩
    rw [← lookup_eq_some_iff_mem a.distinct, ← lookup_eq_some_iff_mem b.distinct]
    exact Eq.congr_left (h name)
  have hirrefl : Std.Irrefl fun x y : String × String => x.1 < y.1 :=
    ⟨fun x => String.lt_irrefl x.1⟩
  have hantisymm : Std.Antisymm fun x y : String × String => x.1 < y.1 :=
    ⟨fun x y hxy hyx => absurd hyx (String.lt_asymm hxy)⟩
  have hentries := a.ascending.eq_of_mem_iff b.ascending hmem
  cases a
  cases b
  simpa using hentries

@[simp] theorem find?_empty (key : String) : empty.find? key = none := rfl

/-- No entry is that of a name that is not bound. -/
theorem ne_of_contains_eq_false {b : Bindings} {name : String} (h : b.contains name = false)
    {entry : String × String} (hentry : entry ∈ b.entries) : entry.1 ≠ name := by
  rintro rfl
  have hlookup : b.find? entry.1 = some entry.2 :=
    (lookup_eq_some_iff_mem b.distinct).mpr hentry
  rw [contains, hlookup] at h
  exact absurd h (by simp)

theorem find?_erase (b : Bindings) (name key : String) :
    (b.erase name).find? key = if key = name then none else b.find? key :=
  lookup_filter_ne name key b.entries

/-- Of two texts for one name the later one counts. -/
theorem insert_insert_self (b : Bindings) (name first text : String) :
    (b.insert name first).insert name text = b.insert name text := by
  apply ext_find?
  intro key
  simp only [find?_insert]
  split <;> rfl

/-- Two names are bound in any order. -/
theorem insert_comm {name other : String} (h : other ≠ name) (b : Bindings)
    (text more : String) :
    (b.insert other more).insert name text = (b.insert name text).insert other more := by
  apply ext_find?
  intro key
  simp only [find?_insert]
  by_cases hkey : key = name
  · simp [hkey, Ne.symm h]
  · simp [hkey]

theorem erase_insert_self (b : Bindings) (name text : String) :
    (b.insert name text).erase name = b.erase name := by
  apply ext_find?
  intro key
  simp only [find?_erase, find?_insert]
  split <;> rfl

theorem erase_insert {name other : String} (h : other ≠ name) (b : Bindings) (more : String) :
    (b.insert other more).erase name = (b.erase name).insert other more := by
  apply ext_find?
  intro key
  simp only [find?_erase, find?_insert]
  by_cases hkey : key = name
  · simp [hkey, Ne.symm h]
  · simp [hkey]

/-! ## A name before others -/

/-- A change that does not care about some names may be made before they are
bound. -/
theorem foldl_insert_of_commutes (change : Bindings → Bindings) {more : List (String × String)}
    (h : ∀ entry ∈ more, ∀ b : Bindings,
      change (b.insert entry.1 entry.2) = (change b).insert entry.1 entry.2) (b : Bindings) :
    change (more.foldl (fun b entry => b.insert entry.1 entry.2) b) =
      more.foldl (fun b entry => b.insert entry.1 entry.2) (change b) := by
  induction more generalizing b with
  | nil => rfl
  | cons entry more ih =>
      have hrest := ih fun other hother => h other (List.mem_cons_of_mem entry hother)
      rw [List.foldl_cons, List.foldl_cons, hrest, h entry List.mem_cons_self]

section Others

variable {name : String} {more : List (String × String)}

/-- A name that none of the others is may be bound after them. -/
theorem insert_ofList_cons (h : ∀ entry ∈ more, entry.1 ≠ name) (text later : String) :
    (ofList ((name, text) :: more)).insert name later = ofList ((name, later) :: more) := by
  have hcommutes : ∀ entry ∈ more, ∀ b : Bindings,
      (b.insert entry.1 entry.2).insert name later =
        (b.insert name later).insert entry.1 entry.2 :=
    fun entry hentry b => insert_comm (h entry hentry) b later entry.2
  rw [ofList, List.foldl_cons, foldl_insert_of_commutes (insert · name later) hcommutes,
    insert_insert_self, ofList, List.foldl_cons]

/-- Without the name the others are left. -/
theorem erase_ofList_cons (h : ∀ entry ∈ more, entry.1 ≠ name) (text : String) :
    (ofList ((name, text) :: more)).erase name = ofList more := by
  have hcommutes : ∀ entry ∈ more, ∀ b : Bindings,
      (b.insert entry.1 entry.2).erase name = (b.erase name).insert entry.1 entry.2 :=
    fun entry hentry b => erase_insert (h entry hentry) b entry.2
  have hempty : empty.erase name = empty := rfl
  rw [ofList, List.foldl_cons, foldl_insert_of_commutes (erase · name) hcommutes,
    erase_insert_self, hempty, ofList]

end Others

end Bindings

/-! ## Bindings in documents -/

open Json (Value Answer)

/-- A name after all others is bound at the end. -/
theorem bind_of_lt {name text : String} {entries : List (String × String)}
    (h : ∀ entry ∈ entries, entry.1 < name) :
    bind name text entries = entries ++ [(name, text)] := by
  induction entries with
  | nil => rfl
  | cons first entries ih =>
    have hfirst := h first List.mem_cons_self
    have hne : name ≠ first.1 := fun heq => String.lt_irrefl name (heq ▸ hfirst)
    have hrest := ih fun entry hmem => h entry (List.mem_cons_of_mem first hmem)
    rw [bind, if_neg (String.lt_asymm hfirst), if_neg hne, hrest]
    rfl

namespace Bindings

theorem entries_foldl_insert {b : Bindings} {rest : List (String × String)}
    (h : (b.entries ++ rest).Pairwise fun x y => x.1 < y.1) :
    (rest.foldl (fun b entry => b.insert entry.1 entry.2) b).entries = b.entries ++ rest := by
  induction rest generalizing b with
  | nil => simp
  | cons entry rest ih =>
    have hbefore : ∀ x ∈ b.entries, x.1 < entry.1 := fun x hx =>
      (List.pairwise_append.mp h).2.2 x hx entry List.mem_cons_self
    have hinsert : (b.insert entry.1 entry.2).entries = b.entries ++ [entry] := bind_of_lt hbefore
    rw [List.foldl_cons, ih (by rw [hinsert]; simpa using h), hinsert]
    simp

/-- Bindings in their order are bound to themselves. -/
theorem ofList_entries (b : Bindings) : ofList b.entries = b := by
  have hentries : (ofList b.entries).entries = b.entries :=
    entries_foldl_insert (b := empty) b.ascending
  cases hb : ofList b.entries
  rw [hb] at hentries
  cases hentries
  rfl

/-- Bindings are read back. -/
theorem ask_encode (b : Bindings) {depth : Nat} (hdepth : 1 < depth) :
    ask depth b.encode.draft = .ok b := by
  have hinsert : ∀ (start : Bindings) (entries : List (String × String)),
      (entries.map fun entry => (entry.1, Value.text entry.2)).foldlM
          (fun b member => (member.2.draft.asText "a string").map (b.insert member.1)) start =
        (.ok (entries.foldl (fun b entry => b.insert entry.1 entry.2) start) :
          Answer Bindings) := by
    intro start entries
    induction entries generalizing start with
    | nil => rfl
    | cons entry entries ih => exact ih (start.insert entry.1 entry.2)
  simp only [encode, Json.draft_object, ask, Json.enter_of_lt hdepth, Json.lift_ok,
    Json.collect_draftMembers, Bind.bind, Except.bind, hinsert]
  exact congrArg Except.ok b.ofList_entries

/-- Bindings hold no numbers. -/
theorem legible_encode (b : Bindings) : b.encode.Legible := by
  have hmembers : ∀ entries : List (String × String),
      Json.LegibleMembers (entries.map fun entry => (entry.1, Value.text entry.2)) := by
    intro entries
    induction entries with
    | nil => trivial
    | cons entry entries ih => exact ⟨trivial, ih⟩
  exact hmembers b.entries

end Bindings

end TicketPress
