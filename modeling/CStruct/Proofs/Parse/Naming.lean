import CStruct.Proofs.Parse.Reading

/-!
# Declaring names keeps their meaning

Declaring a name, tying a typedef name to its struct and reserving a keyword change symbols and
scopes. None of them changes what a spelling means, and at worst they report a warning.
-/

namespace CStruct.Parse.State

open SymbolTable

/-- What has not been read is the symbol of nothing. -/
theorem symbol_of_size_le {s : State} {id : SymbolId} (h : s.symbols.size ≤ id) :
    s.symbol id = default := by
  rw [symbol, Array.getD_eq_getD_getElem?, Array.getElem?_eq_none h]
  rfl

theorem symbol_modifySymbol_self {s : State} {id : SymbolId} (h : id < s.symbols.size)
    (f : Symbol → Symbol) : (s.modifySymbol id f).symbol id = f (s.symbol id) := by
  rw [symbol, symbol, State.modifySymbol, Array.getD_eq_getD_getElem?, Array.getElem?_modify,
    if_pos rfl, Array.getD_eq_getD_getElem?, Array.getElem?_eq_getElem h]
  rfl

theorem scopeAt_bind {s : State} {name : String} {id : SymbolId} {k : ScopeId} :
    (s.bind name id).scopeAt k =
      if k = s.scope ∧ k < s.scopes.size then (s.scopeAt k).insert name id else s.scopeAt k := by
  rw [scopeAt, scopeAt, State.bind, Array.getD_eq_getD_getElem?, Array.getElem?_modify,
    Array.getD_eq_getD_getElem?]
  by_cases hk : k < s.scopes.size
  · rw [Array.getElem?_eq_getElem hk]
    by_cases hscope : s.scope = k
    · rw [if_pos hscope, if_pos ⟨hscope.symm, hk⟩]
      rfl
    · rw [if_neg hscope, if_neg fun h => hscope h.1.symm]
  · rw [Array.getElem?_eq_none (Nat.le_of_not_lt hk)]
    have hnone :
        (if s.scope = k then (none : Option Scope).map (·.insert name id) else none) = none := by
      split <;> rfl
    rw [hnone, if_neg fun h => hk h.2]

theorem hasErrors_report_warning (s : State) (id : SymbolId) {problem : Problem}
    (hproblem : problem.severity = .warning) : (s.report id problem).hasErrors = s.hasErrors := by
  rw [hasErrors, Diagnostics.hasErrors, toList_report, List.any_append, List.any_cons]
  have herror : (problem.diagnosticAt (s.symbol id).span).isError = false := by
    rw [Diagnostic.isError, Problem.diagnosticAt, hproblem]
    rfl
  rw [herror, Bool.false_or, List.any_nil, Bool.or_false]
  rfl

/-! ## Reserving -/

/-- Reserving a keyword changes nothing, or it binds the keyword and may warn. -/
theorem reserve_cases (s : State) (keyword : SymbolId) :
    s.reserve keyword = s ∨ ∃ ds, ds.toList.filter Diagnostic.isError = s.errors ∧
      s.reserve keyword =
        ({ s with diagnostics := ds }.modifySymbol keyword ({ · with reserved := true })).bind
          (s.symbol keyword).value keyword := by
  have hwarn : (s.warnDefined keyword).errors = s.errors := by
    show (s.diagnostics.report _).toList.filter Diagnostic.isError = s.errors
    rw [Diagnostics.toList_report, List.filter_append]
    exact List.append_nil _
  unfold State.reserve
  dsimp only
  split
  · exact .inr ⟨s.diagnostics, rfl, rfl⟩
  · split
    · exact .inl rfl
    · split
      · exact .inr ⟨_, hwarn, rfl⟩
      · exact .inr ⟨s.diagnostics, rfl, rfl⟩

section Reserving

variable {s : State} {keyword : SymbolId}

theorem token_reserve : (s.reserve keyword).token = s.token := by
  rcases reserve_cases s keyword with h | ⟨ds, -, h⟩
  · rw [h]
  · rw [h]
    rfl

theorem endSymbol?_reserve : (s.reserve keyword).endSymbol? = s.endSymbol? := by
  rcases reserve_cases s keyword with h | ⟨ds, -, h⟩
  · rw [h]
  · rw [h]
    rfl

theorem errors_reserve : (s.reserve keyword).errors = s.errors := by
  rcases reserve_cases s keyword with h | ⟨ds, hds, h⟩ <;> rw [h]
  exact hds

theorem size_reserve : (s.reserve keyword).symbols.size = s.symbols.size := by
  rcases reserve_cases s keyword with h | ⟨ds, -, h⟩ <;> rw [h]
  exact Array.size_modify

theorem symbol_reserve_of_ne {id : SymbolId} (hne : id ≠ keyword) :
    (s.reserve keyword).symbol id = s.symbol id := by
  rcases reserve_cases s keyword with h | ⟨ds, -, h⟩ <;> rw [h]
  exact symbol_modifySymbol_of_ne hne

/-- Nothing about a keyword changes but that it is reserved. -/
theorem symbol_reserve_self (h : keyword < s.symbols.size) :
    (s.reserve keyword).symbol keyword = s.symbol keyword ∨
      (s.reserve keyword).symbol keyword = { s.symbol keyword with reserved := true } := by
  rcases reserve_cases s keyword with heq | ⟨ds, -, heq⟩ <;> rw [heq]
  · exact .inl rfl
  · exact .inr (symbol_modifySymbol_self (s := { s with diagnostics := ds }) h _)

theorem local?_bind {name other : String} {id id' : SymbolId}
    (h : (s.bind name id).local? other = some id') : s.local? other = some id' ∨ id' = id := by
  change ((s.bind name id).scopeAt s.scope).get? other = some id' at h
  rw [scopeAt_bind] at h
  split at h
  · rw [Scope.get?, Scope.insert, Dictionary.get?_insert] at h
    split at h
    · exact .inr (Option.some.inj h).symm
    · exact .inl h
  · exact .inl h

-- A name that gets another meaning stands for a reserved keyword.
theorem local?_reserve {name : String} {id : SymbolId} (hlt : keyword < s.symbols.size)
    (h : (s.reserve keyword).local? name = some id) :
    s.local? name = some id ∨
      id = keyword ∧ ((s.reserve keyword).symbol keyword).reserved = true := by
  rcases reserve_cases s keyword with heq | ⟨ds, -, heq⟩ <;> rw [heq] at h ⊢
  · exact .inl h
  · rcases local?_bind h with hold | rfl
    · exact .inl hold
    · refine .inr ⟨rfl, ?_⟩
      change ((State.modifySymbol { s with diagnostics := ds } id _).symbol id).reserved = true
      rw [symbol_modifySymbol_self (s := { s with diagnostics := ds }) hlt]

end Reserving

/-! ## Defining -/

section Defining

variable (s : State) (name type struct : SymbolId)

/-- Defining a name may warn; it declares the name and binds it. -/
theorem define_eq : ∃ ds, s.define name type =
    ({ s with diagnostics := ds }.declare name type).bind (s.symbol name).value name := by
  unfold State.define
  dsimp only
  split <;> exact ⟨_, rfl⟩

/-- Defining a typedef name may warn; it declares the name, ties it to its struct, and binds it
unless the struct stands under the same name. -/
theorem defineAlias_eq : ∃ ds, s.defineAlias name type struct =
    let s' := (({ s with diagnostics := ds }.declare name type).modifyDeclaration name
      ({ · with isAlias := true })).modifyDeclaration struct ({ · with alias? := some name })
    if s.local? (s.symbol name).value = some struct then s'
    else s'.bind (s.symbol name).value name := by
  have hwarn : ∃ ds, (if (s.local? (s.symbol name).value).isSome then s.warnDefined name else s) =
      { s with diagnostics := ds } := by
    split <;> exact ⟨_, rfl⟩
  obtain ⟨ds, h⟩ := hwarn
  refine ⟨ds, ?_⟩
  unfold State.defineAlias
  dsimp only
  rw [h]

theorem token_define : (s.define name type).token = s.token := by
  obtain ⟨ds, h⟩ := define_eq s name type
  rw [h]
  rfl

theorem endSymbol?_define : (s.define name type).endSymbol? = s.endSymbol? := by
  obtain ⟨ds, h⟩ := define_eq s name type
  rw [h]
  rfl

theorem size_define : (s.define name type).symbols.size = s.symbols.size := by
  obtain ⟨ds, h⟩ := define_eq s name type
  rw [h]
  exact Array.size_modify

theorem token_defineAlias : (s.defineAlias name type struct).token = s.token := by
  obtain ⟨ds, h⟩ := defineAlias_eq s name type struct
  rw [h]
  dsimp only
  split <;> rfl

theorem endSymbol?_defineAlias : (s.defineAlias name type struct).endSymbol? = s.endSymbol? := by
  obtain ⟨ds, h⟩ := defineAlias_eq s name type struct
  rw [h]
  dsimp only
  split <;> rfl

end Defining

namespace Reads

variable {s : State} {w : List Lexeme}

/-- A step that changes neither the symbols nor what is pending, and gives no name another meaning. -/
theorem passes_of_eq (h : s.Reads w) {s' : State} (hpending : s'.pending = s.pending)
    (hsymbols : s'.symbols = s.symbols) (htoken : s'.token = s.token)
    (hend : s'.endSymbol? = s.endSymbol?) (hscope : s'.scope = s.scope)
    (houter : s'.outer = s.outer) (herrors : s'.hasErrors = s.hasErrors)
    (hmeaningful : (∀ id l, s.Knows id l → s'.Knows id l) → s'.Meaningful) :
    s.Passes s' w := by
  have hleads := h.sound.leads_of_eq hpending hsymbols htoken hend
  have hsymbol (id : SymbolId) : s'.symbol id = s.symbol id := by rw [symbol, symbol, hsymbols]
  have hknows : ∀ id l, s.Knows id l → s'.Knows id l := fun id l hl =>
    hl.of_symbol_eq (hleads.plain id hl.plain) (hsymbol id)
  refine ⟨⟨hleads.sound, hmeaningful hknows, ?_, ?_, ?_, h.ordinary⟩, ⟨hknows, hscope, houter, herrors⟩⟩
  · rw [hpending]
    exact h.pending
  · rw [hend]
    exact h.ended
  · rw [State.current, htoken, hsymbol]
    exact h.current

theorem report_warning (h : s.Reads w) (id : SymbolId) {problem : Problem}
    (hproblem : problem.severity = .warning) : s.Passes (s.report id problem) w :=
  h.passes_of_eq rfl rfl rfl rfl rfl rfl (hasErrors_report_warning s id hproblem)
    fun hknows => h.meaningful.of_knows rfl hknows

theorem bind (h : s.Reads w) {name : String} {id : SymbolId} {l : Lexeme} (hl : l.IsWord)
    (htext : l.text = name) (hid : s.Knows id l) : s.Passes (s.bind name id) w := by
  refine h.passes_of_eq rfl rfl rfl rfl rfl rfl rfl fun hknows => ?_
  intro k other id' hk
  rw [scopeAt_bind] at hk
  split at hk
  · rw [Scope.get?, Scope.insert, Dictionary.get?_insert] at hk
    split at hk
    · rename_i hother
      cases hk
      exact ⟨l, hl, htext.trans hother.symm, hknows id l hid⟩
    · obtain ⟨l', hl', htext', hknown⟩ := h.meaningful k other id' hk
      exact ⟨l', hl', htext', hknows id' l' hknown⟩
  · obtain ⟨l', hl', htext', hknown⟩ := h.meaningful k other id' hk
    exact ⟨l', hl', htext', hknows id' l' hknown⟩

/-- Changing what is known of a symbol, but not what it means. -/
theorem modifySymbol (h : s.Reads w) {id : SymbolId} (p : s.Plain id) {f : Symbol → Symbol}
    (hvalue : (f (s.symbol id)).value = (s.symbol id).value)
    (hspan : (f (s.symbol id)).span = (s.symbol id).span)
    (hproto : (f (s.symbol id)).id = (s.symbol id).id)
    (hrole : (f (s.symbol id)).role = (s.symbol id).role)
    (hkind : id = s.token → (f (s.symbol id)).kind = (s.symbol id).kind) :
    s.Passes (s.modifySymbol id f) w := by
  have hleads := h.sound.modifySymbol p f
  have hspells : ∀ i l, Spells (s.symbol i) l → Spells ((s.modifySymbol id f).symbol i) l := by
    intro i l hl
    by_cases hi : i = id
    · subst hi
      rw [symbol_modifySymbol_self p.lt]
      exact ⟨hvalue.trans hl.value, hspan.trans hl.span, hproto.trans hl.id, hrole.trans hl.role⟩
    · rw [symbol_modifySymbol_of_ne hi]
      exact hl
  have hknows : ∀ i l, s.Knows i l → (s.modifySymbol id f).Knows i l := fun i l hl =>
    ⟨hleads.plain i hl.plain, hspells i l hl.spells⟩
  refine ⟨⟨hleads.sound, h.meaningful.of_knows rfl hknows, h.pending, h.ended, ?_, h.ordinary⟩,
    ⟨hknows, rfl, rfl, rfl⟩⟩
  -- only the kind of the token is looked at, and only that may not change
  cases w with
  | nil =>
    have hend : s.endSymbol? ≠ none := fun he => h.ended.1 he rfl
    obtain ⟨e, he⟩ := Option.ne_none_iff_exists'.1 hend
    have htoken : s.token ≠ id := fun heq =>
      p.ne (by rw [he, ← (h.sound.atEnd e he).2.1, heq])
    show Faces ((s.modifySymbol id f).symbol s.token) none
    rw [symbol_modifySymbol_of_ne htoken]
    exact h.current
  | cons l w =>
    refine ⟨hspells _ l h.current.1, ?_⟩
    show ((s.modifySymbol id f).symbol s.token).kind = _
    rw [← h.current.2]
    by_cases htoken : s.token = id
    · rw [htoken, symbol_modifySymbol_self p.lt, hkind htoken.symm, State.current, htoken]
    · rw [symbol_modifySymbol_of_ne htoken, State.current]

/-! ## Names and keywords -/

theorem modifyDeclaration (h : s.Reads w) {id : SymbolId} (p : s.Plain id)
    (f : Declaration → Declaration) : s.Passes (s.modifyDeclaration id f) w :=
  h.modifySymbol p rfl rfl rfl rfl fun _ => rfl

/-- A name that is declared is an operand already. -/
theorem declare (h : s.Reads w) {name : SymbolId} {l : Lexeme} (hname : s.Knows name l)
    (hl : l.IsIdent) (hget : SymbolTable.cStructs.get? l.text = none)
    (hkind : name = s.token → s.current.kind = .name) (type : SymbolId) :
    s.Passes (s.declare name type) w := by
  apply h.modifySymbol hname.plain
  · rfl
  · rfl
  · rfl
  · rw [hname.spells.role, Lexeme.prototype_ident hl hget]
  · intro htoken
    subst htoken
    exact (hkind rfl).symm

theorem define (h : s.Reads w) {name : SymbolId} {l : Lexeme} (hname : s.Knows name l)
    (hl : l.IsIdent) (hget : SymbolTable.cStructs.get? l.text = none)
    (hkind : name = s.token → s.current.kind = .name) (type : SymbolId) :
    s.Passes (s.define name type) w := by
  have hdefine {s₁ : State} (h₁ : s.Passes s₁ w) (hkind₁ : name = s₁.token → s₁.current.kind = .name) :
      s.Passes ((s₁.declare name type).bind (s.symbol name).value name) w := by
    have hname₁ := h₁.keeps.knows name l hname
    have h₂ := h₁.trans (h₁.reads.declare hname₁ hl hget hkind₁ type)
    have hname₂ := h₂.keeps.knows name l hname
    exact h₂.trans (h₂.reads.bind (.inl hl.1) hname.spells.value.symm hname₂)
  unfold State.define
  dsimp only
  split
  · exact hdefine (h.report_warning name rfl) hkind
  · exact hdefine h.passes hkind

theorem defineAlias (h : s.Reads w) {name struct : SymbolId} {l tag : Lexeme}
    (hname : s.Knows name l) (hl : l.IsIdent) (hget : SymbolTable.cStructs.get? l.text = none)
    (hkind : name = s.token → s.current.kind = .name) (hstruct : s.Knows struct tag)
    (type : SymbolId) :
    s.Passes (s.defineAlias name type struct) w := by
  have hwarn : s.Passes
      (if (s.local? (s.symbol name).value).isSome then s.warnDefined name else s) w := by
    split
    · exact h.report_warning name rfl
    · exact h.passes
  have hkind₁ : name = s.token → (if (s.local? (s.symbol name).value).isSome then s.warnDefined name
      else s).current.kind = .name := by
    split <;> exact hkind
  unfold State.defineAlias
  dsimp only
  have htoken : (if (s.local? (s.symbol name).value).isSome then s.warnDefined name
      else s).token = s.token := by
    split <;> rfl
  generalize (if (s.local? (s.symbol name).value).isSome then s.warnDefined name else s) = s₁
    at hwarn hkind₁ htoken ⊢
  have hname₁ := hwarn.keeps.knows name l hname
  have h₂ := hwarn.trans (hwarn.reads.declare hname₁ hl hget (htoken ▸ hkind₁) type)
  have hname₂ := h₂.keeps.knows name l hname
  have h₃ := h₂.trans (h₂.reads.modifyDeclaration hname₂.plain ({ · with isAlias := true }))
  have hstruct₃ := h₃.keeps.knows struct tag hstruct
  have h₄ := h₃.trans (h₃.reads.modifyDeclaration hstruct₃.plain ({ · with alias? := some name }))
  split
  · exact h₄
  · have hname₄ := h₄.keeps.knows name l hname
    exact h₄.trans (h₄.reads.bind (.inl hl.1) hname.spells.value.symm hname₄)

theorem reserve (h : s.Reads w) {keyword : SymbolId} {l : Lexeme} (hkeyword : s.Knows keyword l)
    (hl : l.IsWord) : s.Passes (s.reserve keyword) w := by
  have hbound {s₁ : State} (h₁ : s.Passes s₁ w) :
      s.Passes ((s₁.modifySymbol keyword ({ · with reserved := true })).bind
        (s.symbol keyword).value keyword) w := by
    have hkeyword₁ := h₁.keeps.knows keyword l hkeyword
    have h₂ := h₁.trans (h₁.reads.modifySymbol (f := ({ · with reserved := true }))
      hkeyword₁.plain rfl rfl rfl rfl fun _ => rfl)
    have hkeyword₂ := h₂.keeps.knows keyword l hkeyword
    exact h₂.trans (h₂.reads.bind hl hkeyword.spells.value.symm hkeyword₂)
  unfold State.reserve
  dsimp only
  split
  · exact hbound h.passes
  · split
    · exact h.passes
    · split
      · exact hbound (h.report_warning keyword rfl)
      · exact hbound h.passes

end Reads

end CStruct.Parse.State
