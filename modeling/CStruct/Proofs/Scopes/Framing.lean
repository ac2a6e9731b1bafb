import CStruct.Proofs.Scopes.Keyed

/-!
# What stays around a part of a source

A part of a source that is read, such as the body of a struct, changes the scope that is open and
those opened in it. The scopes around it stay as they are, and so does what makes a declared name
that name: its spelling, its scope and how it was declared.
-/

namespace CStruct.Parse

open SymbolTable State

/-- A declared name that stays declared, as the same name in the same scope. -/
structure Lasts (x y : Symbol) : Prop where
  declared : y.isDeclaration = true
  value : y.value = x.value
  scope? : y.scope? = x.scope?
  declaredType? : y.declaredType? = x.declaredType?
  isAlias : y.isAlias = x.isAlias

theorem Lasts.refl {x : Symbol} (h : x.isDeclaration = true) : Lasts x x := ⟨h, rfl, rfl, rfl, rfl⟩

theorem Lasts.trans {x y z : Symbol} (h : Lasts x y) (h' : Lasts y z) : Lasts x z :=
  ⟨h'.declared, h'.value.trans h.value, h'.scope?.trans h.scope?,
    h'.declaredType?.trans h.declaredType?, h'.isAlias.trans h.isAlias⟩

/-- Changing what is known of a declared name, but not how it was declared. -/
theorem lasts_map {x : Symbol} (h : x.isDeclaration = true) {f : Declaration → Declaration}
    (htype : ∀ d, (f d).declaredType = d.declaredType) (halias : ∀ d, (f d).isAlias = d.isAlias) :
    Lasts x { x with declaration? := x.declaration?.map f } := by
  obtain ⟨hkind, hsome⟩ := Bool.and_eq_true_iff.1 h
  obtain ⟨d, hd⟩ := Option.isSome_iff_exists.1 hsome
  refine ⟨?_, rfl, rfl, ?_, ?_⟩
  · show (x.kind == .name && (x.declaration?.map f).isSome) = true
    rw [hkind, hd]
    rfl
  · show (x.declaration?.map f).map (·.declaredType) = x.declaration?.map (·.declaredType)
    rw [hd]
    exact congrArg some (htype d)
  · show (x.declaration?.map f).any (·.isAlias) = x.declaration?.any (·.isAlias)
    rw [hd]
    exact halias d

namespace State

variable {t : SymbolTable} {s s' s'' : State} {name : SymbolId}

/-- Between the two states, the open scope stays open and gets entries for new names only, no other
scope changes that was there, and declared names last. -/
structure ScopeFrame (s s' : State) : Prop where
  scope : s'.scope = s.scope
  outer : s'.outer = s.outer
  scopes_le : s.scopes.size ≤ s'.scopes.size
  scopeAt : ∀ k < s.scopes.size, k ≠ s.scope → s'.scopeAt k = s.scopeAt k
  entry : ∀ name id, s'.local? name = some id →
    s.local? name = some id ∨ ¬(s.symbol id).isDeclaration = true
  lasts : ∀ id, (s.symbol id).isDeclaration = true → Lasts (s.symbol id) (s'.symbol id)

/-- A change to the symbols alone. -/
theorem scopeFrame_of_eq (hscopes : s'.scopes = s.scopes) (hscope : s'.scope = s.scope)
    (houter : s'.outer = s.outer)
    (hlasts : ∀ id, (s.symbol id).isDeclaration = true → Lasts (s.symbol id) (s'.symbol id)) :
    s.ScopeFrame s' where
  scope := hscope
  outer := houter
  scopes_le := by rw [hscopes]
  scopeAt := fun k _ _ => by rw [State.scopeAt, State.scopeAt, hscopes]
  entry := fun name id hk => by
    rw [State.local?, State.scopeAt, hscopes, hscope] at hk
    exact .inl hk
  lasts := hlasts

theorem ScopeFrame.refl (s : State) : s.ScopeFrame s :=
  scopeFrame_of_eq rfl rfl rfl fun _ h => .refl h

theorem ScopeFrame.trans (h : s.ScopeFrame s') (h' : s'.ScopeFrame s'') : s.ScopeFrame s'' where
  scope := h'.scope.trans h.scope
  outer := h'.outer.trans h.outer
  scopes_le := Nat.le_trans h.scopes_le h'.scopes_le
  scopeAt := fun k hk hne =>
    (h'.scopeAt k (Nat.lt_of_lt_of_le hk h.scopes_le) (by rw [h.scope]; exact hne)).trans
      (h.scopeAt k hk hne)
  entry := fun name id hk => by
    rcases h'.entry name id hk with hk | hnew
    · exact h.entry name id hk
    · exact .inr fun hid => hnew (h.lasts id hid).declared
  lasts := fun id hid => (h.lasts id hid).trans (h'.lasts id (h.lasts id hid).declared)

theorem Undeclared.ne_of_isDeclaration (h : s.Undeclared name) {id : SymbolId}
    (hid : (s.symbol id).isDeclaration = true) : id ≠ name := by
  rintro rfl
  rw [Symbol.isDeclaration, show (s.symbol id).declaration? = none from h, Option.isSome_none,
    Bool.and_false] at hid
  cases hid

theorem not_isDeclaration (h : s.Undeclared name) : ¬(s.symbol name).isDeclaration = true :=
  fun hid => h.ne_of_isDeclaration hid rfl

/-- A change to a symbol that is not declared, and to nothing else. -/
theorem scopeFrame_of_ne (hname : s.Undeclared name)
    (hsymbol : ∀ id ≠ name, s'.symbol id = s.symbol id) (hscopes : s'.scopes = s.scopes)
    (hscope : s'.scope = s.scope) (houter : s'.outer = s.outer) : s.ScopeFrame s' := by
  apply scopeFrame_of_eq hscopes hscope houter
  intro id hid
  rw [hsymbol id (hname.ne_of_isDeclaration hid)]
  exact .refl hid

/-- A name is bound that was not declared at first. -/
theorem ScopeFrame.bind (h : s.ScopeFrame s') (hname : s.Undeclared name) (value : String) :
    s.ScopeFrame (s'.bind value name) where
  scope := h.scope
  outer := h.outer
  scopes_le := by
    rw [State.bind, Array.size_modify]
    exact h.scopes_le
  scopeAt := fun k hk hne => by
    rw [scopeAt_bind, if_neg fun hopen => hne (hopen.1.trans h.scope)]
    exact h.scopeAt k hk hne
  entry := fun other id hk => by
    rcases local?_bind hk with hold | rfl
    · exact h.entry other id hold
    · exact .inr (not_isDeclaration hname)
  lasts := h.lasts

theorem scopeFrame_report (s : State) (ds : Diagnostics) :
    s.ScopeFrame { s with diagnostics := ds } :=
  scopeFrame_of_eq rfl rfl rfl fun _ hid => .refl hid

theorem lt_of_isDeclaration {id : SymbolId} (hid : (s.symbol id).isDeclaration = true) :
    id < s.symbols.size := by
  by_cases hlt : id < s.symbols.size
  · exact hlt
  · rw [State.symbol, Array.getD_eq_getD_getElem?,
      Array.getElem?_eq_none (Nat.le_of_not_lt hlt)] at hid
    cases hid

theorem scope_advance : (s.advance t).scope = s.scope ∧ (s.advance t).outer = s.outer := by
  unfold State.advance
  dsimp only
  split
  · unfold State.readEnd
    split <;> exact ⟨rfl, rfl⟩
  · unfold State.read
    dsimp only
    split <;> exact ⟨rfl, rfl⟩

theorem scopeFrame_advance (t : SymbolTable) (s : State) : s.ScopeFrame (s.advance t) := by
  apply scopeFrame_of_eq scopes_advance scope_advance.1 scope_advance.2
  intro id hid
  rw [symbol_advance (lt_of_isDeclaration hid)]
  exact .refl hid

theorem scopeFrame_modifySymbol (hname : s.Undeclared name) (f : Symbol → Symbol) :
    s.ScopeFrame (s.modifySymbol name f) :=
  scopeFrame_of_ne hname (fun _ hne => symbol_modifySymbol_of_ne hne) rfl rfl rfl

theorem scopeFrame_modifyDeclaration (s : State) (id : SymbolId) {f : Declaration → Declaration}
    (htype : ∀ d, (f d).declaredType = d.declaredType) (halias : ∀ d, (f d).isAlias = d.isAlias) :
    s.ScopeFrame (s.modifyDeclaration id f) := by
  refine scopeFrame_of_eq rfl rfl rfl ?_
  intro i hi
  rw [State.modifyDeclaration, Parse.symbol_modifySymbol]
  split
  · exact lasts_map hi htype halias
  · exact .refl hi

theorem scopeFrame_define (hname : s.Undeclared name) (type : SymbolId) :
    s.ScopeFrame (s.define name type) := by
  obtain ⟨ds, heq⟩ := define_eq s name type
  rw [heq]
  have hdeclare : s.ScopeFrame ({ s with diagnostics := ds }.declare name type) :=
    scopeFrame_of_ne hname (fun _ hne => symbol_modifySymbol_of_ne hne) rfl rfl rfl
  exact hdeclare.bind hname _

theorem scopeFrame_defineAlias (hname : s.Undeclared name) (type struct : SymbolId) :
    s.ScopeFrame (s.defineAlias name type struct) := by
  obtain ⟨ds, heq⟩ := defineAlias_eq s name type struct
  rw [heq]
  have hdeclare : s.ScopeFrame (({ s with diagnostics := ds }.declare name type).modifyDeclaration
      name ({ · with isAlias := true })) := by
    refine scopeFrame_of_ne hname ?_ rfl rfl rfl
    intro id hne
    rw [State.modifyDeclaration, symbol_modifySymbol_of_ne hne, State.declare,
      symbol_modifySymbol_of_ne hne]
    rfl
  have htie := hdeclare.trans (scopeFrame_modifyDeclaration _ struct
    (f := ({ · with alias? := some name })) (fun _ => rfl) fun _ => rfl)
  dsimp only
  split
  · exact htie
  · exact htie.bind hname _

theorem scopeFrame_reserve (hname : s.Undeclared name) : s.ScopeFrame (s.reserve name) := by
  rcases reserve_cases s name with heq | ⟨ds, -, heq⟩
  · rw [heq]
    exact .refl s
  · rw [heq]
    have hmark : s.ScopeFrame (State.modifySymbol { s with diagnostics := ds } name
        ({ · with reserved := true })) :=
      scopeFrame_of_ne hname (fun _ hne => symbol_modifySymbol_of_ne hne) rfl rfl rfl
    exact hmark.bind hname _

theorem scopeFrame_expect (t : SymbolTable) (id : String) (s : State) :
    s.ScopeFrame (s.expect t id) := by
  unfold State.expect
  split
  · exact scopeFrame_advance t s
  · exact (scopeFrame_report s _).trans (scopeFrame_advance t _)

theorem scopeFrame_setBody (s : State) (tag : SymbolId) (body : ScopeId) :
    s.ScopeFrame (s.setBody tag body) :=
  scopeFrame_modifyDeclaration s tag (fun _ => rfl) fun _ => rfl

/-- Opening and closing a scope leaves all scopes as they are that were there before. -/
theorem scopeFrame_block (hopen : s.scope < s.scopes.size) (h : s.openScope.ScopeFrame s') :
    s.ScopeFrame s'.closeScope ∧ ∀ k < s.scopes.size, s'.closeScope.scopeAt k = s.scopeAt k := by
  have hclose : s'.closeScope = { s' with scope := s.scope, outer := s.outer } := by
    rw [State.closeScope, h.outer]
    rfl
  have hsize : s.openScope.scopes.size = s.scopes.size + 1 := Array.size_push _
  have hle := h.scopes_le
  have hscope : ∀ k < s.scopes.size, s'.closeScope.scopeAt k = s.scopeAt k := by
    intro k hk
    rw [hclose]
    show s'.scopeAt k = _
    rw [h.scopeAt k (by omega) (Nat.ne_of_lt hk), scopeAt_openScope, if_neg (Nat.ne_of_lt hk)]
  refine ⟨?_, hscope⟩
  rw [hclose] at hscope ⊢
  refine ⟨rfl, rfl, ?_, fun k hk _ => hscope k hk, ?_, h.lasts⟩
  · show s.scopes.size ≤ s'.scopes.size
    omega
  · intro name id hk
    rw [State.local?, hscope s.scope hopen] at hk
    exact .inl hk

end State

/-! ## Runs -/

variable {t : SymbolTable} {s s' : State}

theorem ExpressionStep.scopeFrame (h : ExpressionStep t s s') : s.ScopeFrame s' := by
  cases h with
  | advance => exact scopeFrame_advance t s
  | report => exact scopeFrame_report s _
  | reserve hpassed => exact scopeFrame_reserve hpassed.undeclared
  | operand o hpassed => exact scopeFrame_modifySymbol hpassed.undeclared _
  | operands l r hpassed => exact scopeFrame_modifySymbol hpassed.undeclared _

theorem Step.scopeFrame (h : Step t s s') (hs : s.Poised t) : s.ScopeFrame s' := by
  cases h with
  | expression h => exact h.scopeFrame
  | keyword hpassed => exact scopeFrame_modifySymbol hpassed.undeclared _
  | @member keyword =>
    exact (scopeFrame_define hs.undeclared keyword).trans (scopeFrame_advance t _)
  | @dimension name length =>
    exact scopeFrame_modifyDeclaration s name (fun _ => rfl) fun _ => rfl
  | forward keyword htag => exact scopeFrame_define htag.undeclared keyword
  | typedef keyword body =>
    exact ((scopeFrame_define hs.undeclared keyword).trans (scopeFrame_setBody _ _ body)).trans
      (scopeFrame_advance t _)
  | @aliased tag keyword =>
    exact (scopeFrame_defineAlias hs.undeclared keyword tag).trans (scopeFrame_advance t _)

/-- The tag of a struct is declared in the scope around its body. -/
theorem scopeFrame_tag (t : SymbolTable) (keyword : SymbolId) {tag? : Option SymbolId}
    (htag : ∀ tag ∈ tag?, s.Undeclared tag) :
    s.ScopeFrame ((tag?.elim s fun tag => s.define tag keyword).expect t openBrace) := by
  cases tag? with
  | none => exact scopeFrame_expect t openBrace s
  | some tag =>
    exact (scopeFrame_define (htag tag rfl) keyword).trans (scopeFrame_expect t openBrace _)

theorem scopeFrame_leaveBody (s : State) (tag? : Option SymbolId) (body : ScopeId) :
    s.closeScope.ScopeFrame (s.leaveBody t tag? body) := by
  unfold State.leaveBody
  cases tag? with
  | none => exact scopeFrame_expect t closeBrace _
  | some tag => exact (scopeFrame_expect t closeBrace _).trans (scopeFrame_setBody _ tag body)

theorem State.ScopeFrame.scope_lt (h : s.ScopeFrame s') (hopen : s.scope < s.scopes.size) :
    s'.scope < s'.scopes.size := by
  rw [h.scope]
  exact Nat.lt_of_lt_of_le hopen h.scopes_le

theorem scope_lt_openScope (s : State) : s.openScope.scope < s.openScope.scopes.size := by
  show s.scopes.size < (s.scopes.push _).size
  rw [Array.size_push]
  exact Nat.lt_succ_self _

theorem local?_openScope (s : State) (name : String) : s.openScope.local? name = none := by
  show (s.openScope.scopeAt s.scopes.size).get? name = none
  rw [scopeAt_openScope, if_pos rfl]
  rfl

theorem Run.scopeFrame (h : Run t s s') (hs : s.Poised t)
    (hopen : s.scope < s.scopes.size) : s.ScopeFrame s' := by
  induction h with
  | refl => exact .refl _
  | step hrun hstep ih =>
    exact (ih hs hopen).trans (hstep.scopeFrame (hs.run hrun).poised)
  | block keyword hrun htag hbody ih ihbody =>
    have hs₁ := (hs.run hrun).poised
    have henter := (hs₁.enterBody keyword htag).poised
    have htagged := (ih hs hopen).trans
      (scopeFrame_tag t keyword fun tag hmem => (htag tag hmem).undeclared)
    have hinside := ihbody henter (scope_lt_openScope _)
    have hblock := (scopeFrame_block (htagged.scope_lt hopen) hinside).1
    exact (htagged.trans hblock).trans (scopeFrame_leaveBody _ _ _)

end CStruct.Parse
