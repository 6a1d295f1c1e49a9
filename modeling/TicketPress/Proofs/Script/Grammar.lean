import TicketPress.Instruction.Line
import TicketPress.Proofs.Script.Expression

/-!
# The grammar of calls

`Derives` is the grammar of expressions over lexemes, with a bound on how deep
they are nested. It does not say how to read anything. What the reader finds on
a line is what the grammar derives from the first place where a call of the
name starts: `findCall_iff_derives`. A derivation of a call ends with its
closing parenthesis, so there is no second one, and what stands before the call
or behind it is not looked at.
-/

namespace TicketPress

/-! ## Derivations -/

/-- The expressions on a level and the lexemes they are derived from. No
expression stands on a level deeper than the deepest. -/
inductive Derives (deepest : Nat) : (level : Nat) → List Lexeme → Expr → Prop
  /-- A text. -/
  | text {level : Nat} (h : level ≤ deepest) (body : List Char) (interpolated : Bool) :
    Derives deepest level [.text body interpolated] (.text body interpolated)
  /-- A dotted name of one segment is a word. -/
  | word {level : Nat} (h : level ≤ deepest) (spelling : List Char) :
    Derives deepest level [.word spelling] (.word spelling)
  /-- A dotted name of more segments is a path. -/
  | path {level : Nat} (h : level ≤ deepest) {segments : List (List Char)}
    (hsegments : 2 ≤ segments.length) :
    Derives deepest level (writtenPath segments) (.path segments)
  /-- A call is a dotted name and, in parentheses, expressions on the next level
  with commas between them. -/
  | call {level : Nat} (h : level ≤ deepest) {callee : List (List Char)} (hcallee : callee ≠ [])
    {parts : List (List Lexeme × Expr)}
    (hparts : ∀ part ∈ parts, Derives deepest (level + 1) part.1 part.2) :
    Derives deepest level
      (writtenPath callee ++
        .openParen :: ([Lexeme.comma].intercalate (parts.map Prod.fst) ++ [.closeParen]))
      (.call callee (parts.map Prod.snd))

/-- Arguments are written with commas between them. -/
theorem writtenArguments_eq_intercalate (arguments : List Expr) :
    writtenArguments arguments = [Lexeme.comma].intercalate (arguments.map Expr.written) := by
  cases arguments with
  | nil => rfl
  | cons first others =>
      rw [writtenArguments]
      induction others generalizing first with
      | nil => simp [writtenOthers]
      | cons next others ih =>
          simp only [writtenOthers, ih next, List.map_cons, List.intercalate_cons_cons,
            List.append_assoc, List.singleton_append]

/-- What is derived is what is written, and it has as many levels as are left. -/
theorem Derives.written {deepest level : Nat} {found : List Lexeme} {e : Expr}
    (h : Derives deepest level found e) :
    found = e.written ∧ e.Fits (deepest + 1 - level) := by
  have hlevels : ∀ {level : Nat}, level ≤ deepest →
      deepest + 1 - level = deepest - level + 1 := by
    intro level hlevel
    omega
  induction h with
  | text hlevel body interpolated =>
      rw [hlevels hlevel, Expr.written]
      exact ⟨rfl, .text _ body interpolated⟩
  | word hlevel spelling =>
      rw [hlevels hlevel, Expr.written]
      exact ⟨rfl, .word _ spelling⟩
  | path hlevel hsegments =>
      rw [hlevels hlevel, Expr.written]
      exact ⟨rfl, .path _ hsegments⟩
  | @call level hlevel callee hcallee parts hparts ih =>
      have hnext : deepest + 1 - (level + 1) = deepest - level := by omega
      have hfst : parts.map Prod.fst = (parts.map Prod.snd).map Expr.written := by
        rw [List.map_map]
        exact List.map_congr_left fun part hpart => (ih part hpart).1
      refine ⟨?_, ?_⟩
      · rw [Expr.written, writtenArguments_eq_intercalate, ← hfst]
      · rw [hlevels hlevel]
        refine .call hcallee fun argument hargument => ?_
        obtain ⟨part, hpart, rfl⟩ := List.mem_map.mp hargument
        rw [← hnext]
        exact (ih part hpart).2

/-- What fits into the levels that are left is derived. -/
theorem Expr.Fits.derives {levels : Nat} {e : Expr} (h : e.Fits levels) {deepest level : Nat}
    (hlevels : level + levels ≤ deepest + 1) : Derives deepest level e.written e := by
  induction h generalizing level with
  | word levels spelling =>
      rw [Expr.written]
      exact .word (by omega) spelling
  | path levels hsegments =>
      rw [Expr.written]
      exact .path (by omega) hsegments
  | text levels body interpolated =>
      rw [Expr.written]
      exact .text (by omega) body interpolated
  | @call levels callee arguments hcallee harguments ih =>
      have hparts : ∀ part ∈ arguments.map fun argument => (argument.written, argument),
          Derives deepest (level + 1) part.1 part.2 := by
        intro part hpart
        obtain ⟨argument, hargument, rfl⟩ := List.mem_map.mp hpart
        exact ih argument hargument (by omega)
      have hlevel : level ≤ deepest := by omega
      have hcall := Derives.call hlevel hcallee hparts
      rw [Expr.written, writtenArguments_eq_intercalate]
      simpa only [List.map_map, Function.comp_def, List.map_id'] using hcall

/-! ## Where a call starts -/

/-- A call of the name starts at a position: there is a word in the letters of
the name, and an opening parenthesis right after it. -/
def StartsCallAt (name : List Char) (list : List Lexeme) (k : Nat) : Prop :=
  (∃ spelling, list[k]? = some (.word spelling) ∧ Text.sameLetters spelling name = true) ∧
    list[k + 1]? = some .openParen

/-- The first position at which a call of the name starts. -/
structure IsFirstCall (name : List Char) (list : List Lexeme) (k : Nat) : Prop where
  starts : StartsCallAt name list k
  first : ∀ j, j < k → ¬ StartsCallAt name list j

theorem startsCall_iff (name : List Char) (list : List Lexeme) :
    startsCall name list = true ↔ StartsCallAt name list 0 := by
  unfold startsCall StartsCallAt
  split
  · simp
  · rename_i hnot
    constructor
    · intro h
      exact absurd h (by simp)
    · rintro ⟨⟨spelling, hword, -⟩, hparen⟩
      match list, hword, hparen with
      | first :: second :: rest, hword, hparen =>
          obtain rfl : first = .word spelling := by simpa using hword
          obtain rfl : second = .openParen := by simpa using hparen
          exact absurd rfl (hnot spelling rest)

theorem startsCallAt_cons_succ {name : List Char} {lexeme : Lexeme} {list : List Lexeme}
    {k : Nat} : StartsCallAt name (lexeme :: list) (k + 1) ↔ StartsCallAt name list k := by
  simp [StartsCallAt]

instance (name : List Char) (list : List Lexeme) (k : Nat) :
    Decidable (StartsCallAt name list k) :=
  decidable_of_iff (startsCall name (list.drop k) = true) (by
    rw [startsCall_iff]
    simp [StartsCallAt])

instance (name : List Char) (list : List Lexeme) (k : Nat) :
    Decidable (IsFirstCall name list k) :=
  decidable_of_iff (StartsCallAt name list k ∧ ∀ j, j < k → ¬ StartsCallAt name list j)
    ⟨fun h => ⟨h.1, h.2⟩, fun h => ⟨h.starts, h.first⟩⟩

theorem IsFirstCall.unique {name : List Char} {list : List Lexeme} {j k : Nat}
    (hj : IsFirstCall name list j) (hk : IsFirstCall name list k) : j = k := by
  rcases Nat.lt_trichotomy j k with hlt | heq | hgt
  · exact absurd hj.starts (hk.first j hlt)
  · exact heq
  · exact absurd hk.starts (hj.first k hgt)

/-- The search goes to the first position. -/
theorem fromCall?_eq_some_iff {name : List Char} {list start : List Lexeme} :
    fromCall? name list = some start ↔ ∃ k, IsFirstCall name list k ∧ list.drop k = start := by
  induction list with
  | nil =>
      constructor
      · intro h
        simp [fromCall?] at h
      · rintro ⟨k, hk, -⟩
        obtain ⟨⟨spelling, hword, -⟩, -⟩ := hk.starts
        simp at hword
  | cons lexeme list ih =>
      rw [fromCall?]
      by_cases hstarts : startsCall name (lexeme :: list) = true
      · have hfirst : IsFirstCall name (lexeme :: list) 0 :=
          ⟨(startsCall_iff name _).mp hstarts, fun j hj => absurd hj (Nat.not_lt_zero j)⟩
        rw [if_pos hstarts]
        constructor
        · intro h
          exact ⟨0, hfirst, by simpa using h⟩
        · rintro ⟨k, hk, hdrop⟩
          obtain rfl := hk.unique hfirst
          simpa using hdrop
      · have hzero : ¬ StartsCallAt name (lexeme :: list) 0 :=
          fun h => hstarts ((startsCall_iff name _).mpr h)
        have hsucc : ∀ k, IsFirstCall name (lexeme :: list) (k + 1) ↔
            IsFirstCall name list k := by
          intro k
          constructor
          · rintro ⟨hat, hbefore⟩
            refine ⟨startsCallAt_cons_succ.mp hat, fun j hj hstart => ?_⟩
            exact hbefore (j + 1) (by omega) (startsCallAt_cons_succ.mpr hstart)
          · rintro ⟨hat, hbefore⟩
            refine ⟨startsCallAt_cons_succ.mpr hat, fun j hj hstart => ?_⟩
            cases j with
            | zero => exact hzero hstart
            | succ j => exact hbefore j (by omega) (startsCallAt_cons_succ.mp hstart)
        rw [if_neg hstarts, ih]
        constructor
        · rintro ⟨k, hk, hdrop⟩
          exact ⟨k + 1, (hsucc k).mpr hk, by simpa using hdrop⟩
        · rintro ⟨k, hk, hdrop⟩
          cases k with
          | zero => exact absurd hk.starts hzero
          | succ k => exact ⟨k, (hsucc k).mp hk, by simpa using hdrop⟩

/-! ## Calls on a line -/

/-- The lexemes are those of a call in which no expression stands deeper than
on level 64, with the call itself on level 0. -/
def Call.DerivedFrom (call : Call) (found : List Lexeme) : Prop :=
  Derives 64 0 found (.call call.callee call.arguments)

theorem Call.DerivedFrom.readExpr {call : Call} {found : List Lexeme}
    (h : call.DerivedFrom found) (rest : List Lexeme) :
    readExpr (maxNesting + 1) (found ++ rest) =
      some (.call call.callee call.arguments, rest) := by
  obtain ⟨rfl, hfits⟩ := h.written
  exact hfits.read_call rest

theorem Call.derivedFrom_of_readExpr {list rest : List Lexeme} {callee : List (List Char)}
    {arguments : List Expr}
    (h : TicketPress.readExpr (maxNesting + 1) list = some (.call callee arguments, rest)) :
    ∃ found, list = found ++ rest ∧ Call.DerivedFrom ⟨callee, arguments⟩ found := by
  obtain ⟨hlist, hfits⟩ := written_of_readExpr h
  exact ⟨_, hlist, hfits.derives (Nat.le_refl _)⟩

/-- No two calls are derived from the front of one list. -/
theorem Call.DerivedFrom.unique {call other : Call} {found found' list : List Lexeme}
    (h : call.DerivedFrom found) (hfound : found <+: list)
    (h' : other.DerivedFrom found') (hfound' : found' <+: list) :
    found = found' ∧ call = other := by
  obtain ⟨rest, rfl⟩ := hfound
  obtain ⟨rest', hlist⟩ := hfound'
  have hread := h.readExpr rest
  rw [← hlist, h'.readExpr rest'] at hread
  obtain ⟨⟨hcallee, harguments⟩, hrest⟩ :
      (other.callee = call.callee ∧ other.arguments = call.arguments) ∧ rest' = rest := by
    simpa using hread
  subst hrest
  refine ⟨(List.append_cancel_right hlist).symm, ?_⟩
  cases call
  cases other
  simp_all

/-- A call is found on a line if one is derived from the lexemes at the first
position where a call of the name starts, and it is this call. -/
theorem findCall_eq_some_iff {name line : List Char} {call : Call} :
    findCall name line = some call ↔
      ∃ k found, IsFirstCall name (lexemes line) k ∧ found <+: (lexemes line).drop k ∧
        call.DerivedFrom found := by
  simp only [findCall, Option.bind_eq_bind, Option.bind_eq_some_iff, Prod.exists,
    fromCall?_eq_some_iff]
  constructor
  · rintro ⟨start, ⟨k, hk, rfl⟩, e, rest, hread, hcall⟩
    cases e with
    | call callee arguments =>
        obtain rfl : Call.mk callee arguments = call := by simpa [Expr.call?] using hcall
        obtain ⟨found, hlist, hderived⟩ := Call.derivedFrom_of_readExpr hread
        exact ⟨k, found, hk, hlist ▸ List.prefix_append found rest, hderived⟩
    | _ => simp [Expr.call?] at hcall
  · rintro ⟨k, found, hk, ⟨rest, hlist⟩, hderived⟩
    refine ⟨_, ⟨k, hk, rfl⟩, .call call.callee call.arguments, rest, ?_, rfl⟩
    rw [← hlist]
    exact hderived.readExpr rest

/-- A call that starts with a word and an opening parenthesis has the word for
its name. -/
theorem Call.DerivedFrom.callee_eq {call : Call} {found list : List Lexeme}
    {spelling : List Char} (h : call.DerivedFrom found) (hfound : found <+: list)
    (hword : list[0]? = some (.word spelling)) (hparen : list[1]? = some .openParen) :
    call.callee = [spelling] := by
  obtain ⟨rest, rfl⟩ := hfound
  obtain ⟨hwritten, hfits⟩ := h.written
  rw [Expr.written] at hwritten
  cases hcallee : call.callee with
  | nil =>
      rw [hcallee] at hfits
      cases hfits with
      | call hne _ => exact absurd rfl hne
  | cons first segments =>
      rw [hcallee, writtenPath] at hwritten
      subst hwritten
      obtain rfl : first = spelling := by simpa using hword
      cases segments with
      | nil => rfl
      | cons segment segments => simp at hparen

/-- What is found on a line is the one call that the grammar derives from the
first position where a call of the name starts. It has that name, and whatever
stands before it and after its closing parenthesis it is found all the same. -/
theorem findCall_iff_derives {name : List Char} (hname : '.' ∉ name) (line : List Char) :
    (∀ call, findCall name line = some call ↔
      ∃ k found, IsFirstCall name (lexemes line) k ∧ found <+: (lexemes line).drop k ∧
        call.DerivedFrom found) ∧
    (∀ j k found found' call other, IsFirstCall name (lexemes line) j →
      found <+: (lexemes line).drop j → Call.DerivedFrom call found →
      IsFirstCall name (lexemes line) k → found' <+: (lexemes line).drop k →
      Call.DerivedFrom other found' → found = found' ∧ call = other) ∧
    (∀ call, findCall name line = some call → call.is name = true) ∧
    (∀ other j k found call, IsFirstCall name (lexemes line) j →
      found <+: (lexemes line).drop j → Call.DerivedFrom call found →
      IsFirstCall name (lexemes other) k → found <+: (lexemes other).drop k →
      findCall name line = some call ∧ findCall name other = some call) := by
  refine ⟨fun call => findCall_eq_some_iff, ?_, ?_, ?_⟩
  · intro j k found found' call other hj hfound hderived hk hfound' hderived'
    obtain rfl := hj.unique hk
    exact hderived.unique hfound hderived' hfound'
  · intro call hfind
    obtain ⟨k, found, hk, hfound, hderived⟩ := findCall_eq_some_iff.mp hfind
    obtain ⟨⟨spelling, hword, hletters⟩, hparen⟩ := hk.starts
    have hcallee : call.callee = [spelling] :=
      hderived.callee_eq hfound (by simpa using hword) (by simpa using hparen)
    have hsplit : name.splitOn '.' = [name] := List.splitOn_eq_singleton hname
    rw [Call.is, isNamed, hcallee, hsplit]
    simpa [Text.sameLetters] using hletters
  · intro other j k found call hj hfound hderived hk hfound'
    exact ⟨findCall_eq_some_iff.mpr ⟨j, found, hj, hfound, hderived⟩,
      findCall_eq_some_iff.mpr ⟨k, found, hk, hfound', hderived⟩⟩

/-- A line with a call in capitals between other things, one of which looks like
the start of a call. -/
def crowdedLine : List Char := "x = binaryOut; BINARYOUT(f(), a.b, \"c\") + y(".toList

/-- The call on it: a call without arguments, a path and a text. -/
def crowdedCall : Call where
  callee := ["BINARYOUT".toList]
  arguments := [.call [['f']] [], .path [['a'], ['b']], .text ['c'] false]

/-- The lexemes of the call, and no others. -/
def crowdedFound : List Lexeme :=
  [.word "BINARYOUT".toList, .openParen, .word ['f'], .openParen, .closeParen, .comma,
    .word ['a'], .dot, .word ['b'], .comma, .text ['c'] false, .closeParen]

theorem derivedFrom_crowdedFound : crowdedCall.DerivedFrom crowdedFound := by
  have hempty : Derives 64 1 [.word ['f'], .openParen, .closeParen] (.call [['f']] []) :=
    @Derives.call 64 1 (by decide) [['f']] (by simp) [] (by simp)
  have hpath : Derives 64 1 [.word ['a'], .dot, .word ['b']] (.path [['a'], ['b']]) :=
    @Derives.path 64 1 (by decide) [['a'], ['b']] (by decide)
  have htext : Derives 64 1 [.text ['c'] false] (.text ['c'] false) :=
    .text (by decide) ['c'] false
  exact @Derives.call 64 0 (by decide) ["BINARYOUT".toList] (by simp)
    [(_, _), (_, _), (_, _)] (by simpa using ⟨hempty, hpath, htext⟩)

/-- The call is found on the line because it is derived there. -/
theorem findCall_crowdedLine : '.' ∉ outputCall ∧
    findCall outputCall crowdedLine = some crowdedCall ∧ crowdedCall.is outputCall = true := by
  have hname : '.' ∉ outputCall := by decide
  have hspec := findCall_iff_derives hname crowdedLine
  have hfirst : IsFirstCall outputCall (lexemes crowdedLine) 4 := by decide +kernel
  have hfound : crowdedFound <+: (lexemes crowdedLine).drop 4 := by decide +kernel
  have hcall : findCall outputCall crowdedLine = some crowdedCall :=
    (hspec.1 crowdedCall).mpr ⟨4, crowdedFound, hfirst, hfound, derivedFrom_crowdedFound⟩
  exact ⟨hname, hcall, hspec.2.2.1 crowdedCall hcall⟩

end TicketPress
