import CStruct.Parse.Expression

/-!
# What the steps of reading keep

A state is `Sound` when its token is one of its symbols and when, at the end, the token is the end
of the input and nothing is pending. Only symbols that are `Plain`, that is, not the end of the
input, are ever changed. Every step from a sound state `Leads` to a sound state with no more left to
pass, in which what was plain still is; a step `Advances` when it passes something.

For an expression to stay among the plain symbols, the end of the input must neither bind an operand
nor take one: `SymbolTable.Stops` says so. For the statements to stop there as well, it has to go by
its own name: that is `SymbolTable.Ends`, and the table of C is such a one.
-/

namespace CStruct

namespace SymbolTable

/-- A table in which the end of the input stops every expression. -/
structure Stops (t : SymbolTable) : Prop where
  power : (t.prototype endId).role.bindingPower = 0
  nud : (t.prototype endId).role.nud ≠ some .prefixed

/-- A table in which the end of the input stops every expression, and is what statements stop at. -/
structure Ends (t : SymbolTable) : Prop extends t.Stops where
  id : (t.prototype endId).id = endId

theorem ends_basic : basic.Ends := ⟨⟨by decide, by decide⟩, IsRegular.basic.id endId⟩

theorem stops_cStructs : cStructs.Stops := ⟨by decide, by decide⟩

theorem ends_cStructs : cStructs.Ends := ⟨stops_cStructs, IsRegular.cStructs.id endId⟩

end SymbolTable

namespace Parse

open SymbolTable

/-! ## Sound states -/

variable {t : SymbolTable}

/-- What the symbol of the end of the input is like. -/
structure IsEnd (t : SymbolTable) (x : Symbol) : Prop where
  kind : x.kind = .endOfInput
  prototype : x.toPrototype = t.prototype endId

namespace IsEnd

variable {x : Symbol}

theorem power (h : IsEnd t x) (ht : t.Stops) : x.role.bindingPower = 0 := by
  rw [h.prototype]
  exact ht.power

theorem nud (h : IsEnd t x) (ht : t.Stops) : x.role.nud ≠ some .prefixed := by
  rw [h.prototype]
  exact ht.nud

theorem id (h : IsEnd t x) (ht : t.Ends) : x.id = endId := by
  rw [h.prototype]
  exact ht.id

end IsEnd

namespace State

/-- How much is left to pass: the lexemes, and the end before it is reached. -/
def left (s : State) : Nat := s.pending.length + if s.endSymbol?.isSome then 0 else 1

/-- The token is a symbol, and at the end of the source it is the end. -/
structure Sound (t : SymbolTable) (s : State) : Prop where
  token_lt : s.token < s.symbols.size
  atEnd : ∀ e, s.endSymbol? = some e → s.pending = [] ∧ s.token = e ∧ IsEnd t (s.symbol e)

/-- A symbol other than the end of the input. -/
structure Plain (s : State) (id : SymbolId) : Prop where
  lt : id < s.symbols.size
  ne : s.endSymbol? ≠ some id

/-- What the steps of reading keep. -/
structure Leads (t : SymbolTable) (s s' : State) : Prop where
  sound : s'.Sound t
  left_le : s'.left ≤ s.left
  plain : ∀ id, s.Plain id → s'.Plain id

theorem Leads.refl {s : State} (h : s.Sound t) : s.Leads t s :=
  ⟨h, Nat.le_refl _, fun _ p => p⟩

theorem Leads.trans {s s' s'' : State} (h : s.Leads t s') (h' : s'.Leads t s'') : s.Leads t s'' :=
  ⟨h'.sound, Nat.le_trans h'.left_le h.left_le, fun id p => h'.plain id (h.plain id p)⟩

/-- A step that leaves the symbols and the lexemes alone. -/
theorem Sound.leads_of_eq {s s' : State} (h : s.Sound t) (pending : s'.pending = s.pending)
    (symbols : s'.symbols = s.symbols) (token : s'.token = s.token)
    (endSymbol : s'.endSymbol? = s.endSymbol?) : s.Leads t s' where
  sound :=
    { token_lt := by rw [token, symbols]; exact h.token_lt
      atEnd := fun e he => by
        rw [pending, token, symbol, symbols]
        exact h.atEnd e (endSymbol ▸ he) }
  left_le := Nat.le_of_eq (by rw [left, left, pending, endSymbol])
  plain := fun id p => ⟨by rw [symbols]; exact p.lt, by rw [endSymbol]; exact p.ne⟩

theorem left_eq_zero {s : State} (h : s.Sound t) {e : SymbolId} (he : s.endSymbol? = some e) :
    s.left = 0 := by
  simp [left, he, (h.atEnd e he).1]

theorem left_pos {s : State} (h : s.endSymbol? = none) : 0 < s.left := by
  simp [left, h]

/-- At the end, the token is the end. -/
theorem Sound.current {s : State} (h : s.Sound t) (he : s.endSymbol? ≠ none) :
    IsEnd t s.current := by
  obtain ⟨e, he⟩ := Option.ne_none_iff_exists'.1 he
  obtain ⟨-, ht, hx⟩ := h.atEnd e he
  rwa [State.current, ht]

/-- Before the end, the token is plain. -/
theorem Sound.plain_token {s : State} (h : s.Sound t) (he : s.endSymbol? = none) :
    s.Plain s.token :=
  ⟨h.token_lt, by simp [he]⟩

theorem left_lt_fuel (s : State) : s.left < s.fuel := by
  unfold left fuel
  split <;> omega

/-! ## Steps -/

theorem Sound.report {s : State} (h : s.Sound t) (id : SymbolId) (p : Problem) :
    s.Leads t (s.report id p) :=
  h.leads_of_eq rfl rfl rfl rfl

theorem Sound.reportExpected {s : State} (h : s.Sound t) (id : String) :
    s.Leads t (s.reportExpected id) :=
  h.leads_of_eq rfl rfl rfl rfl

theorem Sound.bind {s : State} (h : s.Sound t) (name : String) (id : SymbolId) :
    s.Leads t (s.bind name id) :=
  h.leads_of_eq rfl rfl rfl rfl

theorem Sound.openScope {s : State} (h : s.Sound t) : s.Leads t s.openScope :=
  h.leads_of_eq rfl rfl rfl rfl

theorem Sound.closeScope {s : State} (h : s.Sound t) : s.Leads t s.closeScope := by
  unfold State.closeScope
  split
  · exact Leads.refl h
  · exact h.leads_of_eq rfl rfl rfl rfl

theorem symbol_modifySymbol_of_ne {s : State} {id other : SymbolId} {f : Symbol → Symbol}
    (h : other ≠ id) : (s.modifySymbol id f).symbol other = s.symbol other := by
  simp [symbol, modifySymbol, Array.getD_eq_getD_getElem?, Array.getElem?_modify, h.symm]

theorem Sound.modifySymbol {s : State} (h : s.Sound t) {id : SymbolId} (p : s.Plain id)
    (f : Symbol → Symbol) : s.Leads t (s.modifySymbol id f) where
  sound :=
    { token_lt := by
        rw [State.modifySymbol, Array.size_modify]
        exact h.token_lt
      atEnd := fun e he => by
        obtain ⟨hp, ht, hx⟩ := h.atEnd e he
        refine ⟨hp, ht, ?_⟩
        have hne : e ≠ id := fun hid => p.ne (hid ▸ (he : s.endSymbol? = some e))
        rwa [symbol_modifySymbol_of_ne hne] }
  left_le := Nat.le_refl _
  plain := fun i q => ⟨by rw [State.modifySymbol, Array.size_modify]; exact q.lt, q.ne⟩

theorem Sound.modifyDeclaration {s : State} (h : s.Sound t) {id : SymbolId} (p : s.Plain id)
    (f : Declaration → Declaration) : s.Leads t (s.modifyDeclaration id f) :=
  h.modifySymbol p _

/-! ### Reading -/

theorem symbol_push (s : State) (x : Symbol) : (s.push x).symbol s.symbols.size = x := by
  simp [symbol, push]

/-- Reading a lexeme makes a plain token. -/
theorem leads_push {s s' : State} {x : Symbol} (he : s.endSymbol? = none)
    (symbols : s'.symbols = s.symbols) (endSymbol : s'.endSymbol? = s.endSymbol?)
    (pending : s'.pending.length < s.pending.length) :
    s.Leads t (s'.push x) ∧ (s'.push x).left < s.left := by
  have hlt : (s'.push x).left < s.left := by
    simp only [left, push, endSymbol, he]
    omega
  refine ⟨⟨⟨?_, ?_⟩, Nat.le_of_lt hlt, ?_⟩, hlt⟩
  · simp [push]
  · intro e h
    rw [push, endSymbol, he] at h
    cases h
  · intro id p
    refine ⟨?_, ?_⟩
    · rw [push, Array.size_push, symbols]
      exact Nat.lt_succ_of_lt p.lt
    · rw [push, endSymbol]
      exact p.ne

/-- Reading the end makes it the token. -/
theorem leads_readEnd (t : SymbolTable) {s s' : State} (he : s.endSymbol? = none)
    (symbols : s'.symbols = s.symbols) (endSymbol : s'.endSymbol? = s.endSymbol?)
    (pending : s'.pending = []) :
    s.Leads t (s'.readEnd t) ∧ (s'.readEnd t).left < s.left := by
  rw [he] at endSymbol
  have hlt : (s'.readEnd t).left < s.left := by
    simp [left, readEnd, push, endSymbol, he, pending]
  refine ⟨⟨⟨?_, ?_⟩, Nat.le_of_lt hlt, ?_⟩, hlt⟩
  · simp [readEnd, endSymbol, push]
  · intro e h
    have : e = s'.symbols.size := by simpa [readEnd, endSymbol, eq_comm] using h
    subst this
    refine ⟨by simp [readEnd, endSymbol, push, pending], by simp [readEnd, endSymbol, push], ?_⟩
    simp only [readEnd, endSymbol, symbol, push, Array.getD_eq_getD_getElem?,
      Array.getElem?_push_size, Option.getD_some]
    exact ⟨rfl, rfl⟩
  · intro id p
    refine ⟨?_, ?_⟩
    · simp only [readEnd, endSymbol, push, Array.size_push, symbols]
      exact Nat.lt_succ_of_lt p.lt
    · simp only [readEnd, endSymbol, symbols, ne_eq, Option.some.injEq]
      exact Nat.ne_of_gt p.lt

/-- Before the end, reading passes something. -/
theorem leads_advance_of_none (t : SymbolTable) {s : State} (he : s.endSymbol? = none) :
    s.Leads t (s.advance t) ∧ (s.advance t).left < s.left := by
  have hle := (List.dropWhile_suffix (l := s.pending) Lexeme.isComment).length_le
  unfold advance
  dsimp only
  split
  · rename_i hp
    exact leads_readEnd t he rfl rfl hp
  · rename_i l ls hp
    have hlt : ls.length < s.pending.length := by
      have : s.pending.dropWhile Lexeme.isComment = l :: ls := hp
      rw [this, List.length_cons] at hle
      omega
    unfold read
    dsimp only
    split
    · exact leads_push he rfl rfl hlt
    · exact leads_push he rfl rfl hlt

/-- At the end, reading stays there. -/
theorem Sound.advance_of_end {s : State} (h : s.Sound t) {e : SymbolId}
    (he : s.endSymbol? = some e) :
    s.advance t =
      { s with pending := [], comments := s.comments ++ ([] : List Lexeme), token := e } := by
  simp [State.advance, takeComments, (h.atEnd e he).1, readEnd, he]

theorem Sound.advance {s : State} (h : s.Sound t) : s.Leads t (s.advance t) := by
  cases he : s.endSymbol? with
  | none => exact (leads_advance_of_none t he).1
  | some e =>
    obtain ⟨hp, htok, -⟩ := h.atEnd e he
    rw [h.advance_of_end he]
    exact h.leads_of_eq hp.symm rfl htok.symm rfl

theorem left_advance_lt (t : SymbolTable) {s : State} (he : s.endSymbol? = none) :
    (s.advance t).left < s.left :=
  (leads_advance_of_none t he).2

theorem Sound.expect {s : State} (h : s.Sound t) (id : String) : s.Leads t (s.expect t id) := by
  unfold State.expect
  split
  · exact h.advance
  · exact (h.reportExpected id).trans (h.reportExpected id).sound.advance

/-! ### Definitions -/

theorem Sound.declare {s : State} (h : s.Sound t) {name : SymbolId} (p : s.Plain name)
    (type : SymbolId) : s.Leads t (s.declare name type) :=
  h.modifySymbol p _

theorem Sound.warnDefined {s : State} (h : s.Sound t) (name : SymbolId) :
    s.Leads t (s.warnDefined name) :=
  h.report _ _

theorem Sound.define {s : State} (h : s.Sound t) {name : SymbolId} (p : s.Plain name)
    (type : SymbolId) : s.Leads t (s.define name type) := by
  unfold State.define
  dsimp only
  split
  · have h₁ := h.warnDefined name
    have h₂ := h₁.sound.declare (h₁.plain _ p) type
    exact (h₁.trans h₂).trans (h₂.sound.bind _ _)
  · have h₂ := h.declare p type
    exact h₂.trans (h₂.sound.bind _ _)

theorem Sound.defineAlias {s : State} (h : s.Sound t) {name struct : SymbolId}
    (p : s.Plain name) (q : s.Plain struct) (type : SymbolId) :
    s.Leads t (s.defineAlias name type struct) := by
  have h₁ : s.Leads t
      (if (s.local? (s.symbol name).value).isSome then s.warnDefined name else s) := by
    split
    · exact h.warnDefined name
    · exact Leads.refl h
  have h₂ := h₁.trans (h₁.sound.declare (h₁.plain _ p) type)
  have h₃ := h₂.trans (h₂.sound.modifyDeclaration (h₂.plain _ p) ({ · with isAlias := true }))
  have h₄ := h₃.trans (h₃.sound.modifyDeclaration (h₃.plain _ q) ({ · with alias? := some name }))
  unfold State.defineAlias
  dsimp only
  split
  · exact h₄
  · exact h₄.trans (h₄.sound.bind _ _)

theorem Sound.reserve {s : State} (h : s.Sound t) {keyword : SymbolId} (p : s.Plain keyword) :
    s.Leads t (s.reserve keyword) := by
  have step : ∀ s' : State, s.Leads t s' → s.Leads t
      ((s'.modifySymbol keyword ({ · with reserved := true })).bind
        (s.symbol keyword).value keyword) := by
    intro s' h₁
    have h₂ := h₁.trans (h₁.sound.modifySymbol (h₁.plain _ p) ({ · with reserved := true }))
    exact h₂.trans (h₂.sound.bind _ _)
  unfold State.reserve
  dsimp only
  split
  · exact step s (Leads.refl h)
  · split
    · exact Leads.refl h
    · split
      · exact step _ (h.warnDefined keyword)
      · exact step s (Leads.refl h)

/-- Steps that pass something unless the end has been reached. -/
structure Advances (t : SymbolTable) (s s' : State) : Prop where
  leads : s.Leads t s'
  left_lt : s.endSymbol? = none → s'.left < s.left

theorem Sound.advances_advance {s : State} (h : s.Sound t) : s.Advances t (s.advance t) :=
  ⟨h.advance, left_advance_lt t⟩

theorem Advances.trans {s s' s'' : State} (h : s.Advances t s') (h' : s'.Leads t s'') :
    s.Advances t s'' :=
  ⟨h.leads.trans h', fun he => Nat.lt_of_le_of_lt h'.left_le (h.left_lt he)⟩

theorem Leads.left_lt {s s' : State} {n : Nat} (h : s.Leads t s') (hn : s.left < n) :
    s'.left < n :=
  Nat.lt_of_le_of_lt h.left_le hn

end State

end Parse

end CStruct
