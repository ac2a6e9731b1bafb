import CStruct.Proofs.Grammar.Acceptance

/-!
# Views of a state

A `View` leaves out of a state what reading never looks at: its comments, say, or the places of its
symbols. It makes no difference whether a basic step is taken before a state is viewed or after,
and so it makes none for any reader that is put together from such steps. Only the fuel may differ:
there is less of it where lexemes are left out. So each reader is followed from the view, where it
answers, to the state, where it has at least as much fuel.
-/

namespace CStruct

/-- The symbol, wherever it stands. -/
def Symbol.unplaced (x : Symbol) : Symbol := { x with span := {} }

/-- What does not look at places is the same for symbols that differ in nothing else. -/
theorem Symbol.eq_of_unplaced {α : Type} {f : Symbol → α} (hf : ∀ x, f x.unplaced = f x)
    {x y : Symbol} (h : x.unplaced = y.unplaced) : f x = f y := by
  rw [← hf x, h, hf y]

namespace Parse

open SymbolTable State

/-- Every basic step is the same before and after `view`. A symbol may come out with another place,
so a change of symbols has to let places be. -/
structure View (t : SymbolTable) (view : State → State) : Prop where
  fuel_le (s : State) : (view s).fuel ≤ s.fuel
  token (s : State) : (view s).token = s.token
  scope (s : State) : (view s).scope = s.scope
  outer (s : State) : (view s).outer = s.outer
  scopes (s : State) : (view s).scopes = s.scopes
  symbol (s : State) (id : SymbolId) : ((view s).symbol id).unplaced = (s.symbol id).unplaced
  modifySymbol (s : State) (id : SymbolId) {f : Symbol → Symbol}
    (hf : ∀ x, (f x).unplaced = f x.unplaced) :
    view (s.modifySymbol id f) = (view s).modifySymbol id f
  report (s : State) (id : SymbolId) (problem : Problem) :
    view (s.report id problem) = (view s).report id problem
  bind (s : State) (name : String) (id : SymbolId) : view (s.bind name id) = (view s).bind name id
  openScope (s : State) : view s.openScope = (view s).openScope
  closeScope (s : State) : view s.closeScope = (view s).closeScope
  advance (s : State) : view (s.advance t) = (view s).advance t

namespace View

variable {t : SymbolTable} {view : State → State} (v : View t view)
include v

/-! ## What a view shows -/

section Shown

variable (s : State)

theorem value (id : SymbolId) : ((view s).symbol id).value = (s.symbol id).value :=
  Symbol.eq_of_unplaced (fun _ => rfl) (v.symbol s id)

theorem kind (id : SymbolId) : ((view s).symbol id).kind = (s.symbol id).kind :=
  Symbol.eq_of_unplaced (fun _ => rfl) (v.symbol s id)

theorem role (id : SymbolId) : ((view s).symbol id).role = (s.symbol id).role :=
  Symbol.eq_of_unplaced (f := fun x => x.role) (fun _ => rfl) (v.symbol s id)

theorem reserved (id : SymbolId) : ((view s).symbol id).reserved = (s.symbol id).reserved :=
  Symbol.eq_of_unplaced (f := fun x => x.reserved) (fun _ => rfl) (v.symbol s id)

theorem current : (view s).current.unplaced = s.current.unplaced := by
  rw [State.current, v.token]
  exact v.symbol s s.token

theorem current_kind : (view s).current.kind = s.current.kind :=
  Symbol.eq_of_unplaced (fun _ => rfl) (v.current s)

theorem current_value : (view s).current.value = s.current.value :=
  Symbol.eq_of_unplaced (fun _ => rfl) (v.current s)

theorem current_role : (view s).current.role = s.current.role :=
  Symbol.eq_of_unplaced (f := fun x => x.role) (fun _ => rfl) (v.current s)

theorem check (id : String) : (view s).check id = s.check id :=
  Symbol.eq_of_unplaced (f := fun x => x.id == id) (fun _ => rfl) (v.current s)

theorem atClose : (view s).atClose = s.atClose := by
  rw [State.atClose, v.check, v.check]
  rfl

theorem isGlobal : (view s).isGlobal = s.isGlobal := by
  rw [State.isGlobal, v.outer]
  rfl

theorem local? (name : String) : (view s).local? name = s.local? name := by
  rw [State.local?, State.scopeAt, v.scope, v.scopes]
  rfl

theorem isStructKeyword : (view s).isStructKeyword = s.isStructKeyword := by
  funext id
  rw [State.isStructKeyword, v.value]
  rfl

theorem isStruct : (view s).isStruct = s.isStruct := by
  funext id
  have hdeclaration : ((view s).symbol id).isDeclaration = (s.symbol id).isDeclaration :=
    Symbol.eq_of_unplaced (fun _ => rfl) (v.symbol s id)
  have htype : ((view s).symbol id).declaredType? = (s.symbol id).declaredType? :=
    Symbol.eq_of_unplaced (fun _ => rfl) (v.symbol s id)
  rw [State.isStruct, hdeclaration, htype, v.isStructKeyword]
  rfl

theorem completesForward (existing type : SymbolId) :
    (view s).completesForward existing type = s.completesForward existing type := by
  have hscope : ((view s).symbol existing).innerScope? = (s.symbol existing).innerScope? :=
    Symbol.eq_of_unplaced (fun _ => rfl) (v.symbol s existing)
  have halias : ((view s).symbol existing).isAlias = (s.symbol existing).isAlias :=
    Symbol.eq_of_unplaced (fun _ => rfl) (v.symbol s existing)
  rw [State.completesForward, hscope, halias, v.isStruct, v.isStructKeyword]
  rfl

theorem declaresStruct (name : SymbolId) :
    (view s).declaresStruct name = s.declaresStruct name := by
  rw [State.declaresStruct, v.value, v.local?, v.isStruct]
  rfl

end Shown

/-! ## Steps put together -/

section Steps

variable (s : State)

theorem modifyDeclaration (id : SymbolId) (f : Declaration → Declaration) :
    view (s.modifyDeclaration id f) = (view s).modifyDeclaration id f :=
  v.modifySymbol s id fun _ => rfl

theorem reportExpected (id : String) :
    view (s.reportExpected id) = (view s).reportExpected id := by
  rw [State.reportExpected, v.report, State.reportExpected, v.token, v.current_value]

theorem expect (id : String) : view (s.expect t id) = (view s).expect t id := by
  unfold State.expect
  rw [v.check, v.advance]
  split
  · rfl
  · rw [v.reportExpected]

theorem warnDefined (name : SymbolId) :
    view (s.warnDefined name) = (view s).warnDefined name := by
  rw [State.warnDefined, v.report, State.warnDefined, v.value]

theorem declare (name type : SymbolId) :
    view (s.declare name type) = (view s).declare name type := by
  refine (v.modifySymbol s name ?_).trans ?_
  · exact fun _ => rfl
  · rw [State.declare, v.scope]

theorem define (name type : SymbolId) :
    view (s.define name type) = (view s).define name type := by
  unfold State.define
  dsimp only
  rw [v.value, v.local?, v.bind, v.declare]
  simp only [v.completesForward]
  split
  · rw [v.warnDefined]
  · rfl

theorem defineAlias (name type struct : SymbolId) :
    view (s.defineAlias name type struct) = (view s).defineAlias name type struct := by
  have hwarn : view (if (s.local? (s.symbol name).value).isSome then s.warnDefined name else s) =
      if (s.local? (s.symbol name).value).isSome then (view s).warnDefined name else view s := by
    split
    · rw [v.warnDefined]
    · rfl
  unfold State.defineAlias
  dsimp only
  rw [v.value, v.local?]
  split
  · rw [v.modifyDeclaration, v.modifyDeclaration, v.declare, hwarn]
  · rw [v.bind, v.modifyDeclaration, v.modifyDeclaration, v.declare, hwarn]

theorem reserve (keyword : SymbolId) : view (s.reserve keyword) = (view s).reserve keyword := by
  have hbound (s : State) (value : String) :
      view ((s.modifySymbol keyword ({ · with reserved := true })).bind value keyword) =
        ((view s).modifySymbol keyword ({ · with reserved := true })).bind value keyword := by
    rw [v.bind]
    exact congrArg (State.bind · value keyword) (v.modifySymbol s keyword fun _ => rfl)
  unfold State.reserve
  dsimp only
  rw [v.value, v.local?]
  split
  · rw [hbound]
  · rw [v.reserved, v.kind]
    split
    · rfl
    · split
      · rw [hbound, v.warnDefined]
      · rw [hbound]

theorem setOperand (operator operand : SymbolId) :
    view (s.setOperand operator operand) = (view s).setOperand operator operand :=
  v.modifySymbol s operator fun _ => rfl

theorem setOperands (operator left right : SymbolId) :
    view (s.setOperands operator left right) = (view s).setOperands operator left right :=
  v.modifySymbol s operator fun _ => rfl

theorem enterStatement : view (s.enterStatement t) = (view s).enterStatement t := by
  refine (v.modifySymbol _ s.token ?_).trans ?_
  · exact fun _ => rfl
  · rw [v.reserve, v.advance, State.enterStatement, v.token]

theorem forwardDeclaration (keyword : SymbolId) (tag? : Option SymbolId) :
    Parse.forwardDeclaration keyword tag? (view s) =
      Prod.map id view (Parse.forwardDeclaration keyword tag? s) := by
  unfold Parse.forwardDeclaration
  cases tag? with
  | none => exact congrArg _ (v.report s keyword _).symm
  | some tag =>
    dsimp only
    rw [v.declaresStruct, ← v.define]
    split <;> rfl

theorem typedefName (keyword : SymbolId) (tag? : Option SymbolId) (body : ScopeId) :
    Parse.typedefName t keyword tag? body (view s) =
      Prod.map id view (Parse.typedefName t keyword tag? body s) := by
  unfold Parse.typedefName
  rw [v.current_kind, v.token]
  dsimp only
  split
  · cases tag? with
    | none =>
      dsimp only
      rw [← v.define, State.setBody, ← v.modifyDeclaration, ← v.advance]
      rfl
    | some tag =>
      dsimp only
      rw [← v.defineAlias, ← v.advance]
      rfl
  · rfl

theorem structEnd (keyword : SymbolId) (tag? : Option SymbolId) (body : ScopeId) :
    Parse.structEnd t keyword tag? body (view s) =
      Prod.map id view (Parse.structEnd t keyword tag? body s) := by
  unfold Parse.structEnd
  dsimp only
  rw [← v.closeScope, ← v.expect]
  generalize s.closeScope.expect t closeBrace = s₁
  have hbody : (tag?.elim (view s₁) fun tag => (view s₁).setBody tag body) =
      view (tag?.elim s₁ fun tag => s₁.setBody tag body) := by
    cases tag? with
    | none => rfl
    | some tag => exact (v.modifyDeclaration s₁ tag _).symm
  rw [hbody, v.typedefName]
  generalize Parse.typedefName t keyword tag? body _ = r
  obtain ⟨name?, s₂⟩ := r
  show (_, State.expect t ";" (if name?.isNone then (view s₂).report keyword .anonymousStruct
    else view s₂)) = (_, view _)
  rw [v.expect]
  dsimp only
  split
  · rw [v.report]
    rfl
  · rfl

end Steps

variable {s s' : State}

/-! ## Expressions -/

/-- What the reader answers in a view, the other one answers in the state itself. -/
def Mirrors (view : State → State) (read' read : ExpressionReader) : Prop :=
  ∀ bound s top s', read' bound (view s) = some (top, s') →
    ∃ s₁, read bound s = some (top, s₁) ∧ view s₁ = s'

theorem nullDenotation {read' read : ExpressionReader} (hread : Mirrors view read' read)
    {token : SymbolId} (h : Parse.nullDenotation read' token (view s) = some s') :
    ∃ s₁, Parse.nullDenotation read token s = some s₁ ∧ view s₁ = s' := by
  unfold Parse.nullDenotation at h ⊢
  rw [v.role] at h
  split at h
  · cases h
    exact ⟨s, rfl, rfl⟩
  · rw [← v.reserve] at h
    obtain ⟨⟨operand, s₁'⟩, h₁, rfl⟩ := Option.map_eq_some_iff.1 h
    obtain ⟨s₁, h₂, rfl⟩ := hread _ _ _ _ h₁
    exact ⟨_, Option.map_eq_some_iff.2 ⟨_, h₂, rfl⟩, v.setOperand s₁ token operand⟩
  · cases h
    exact ⟨_, rfl, v.report s token .undefined⟩

theorem rightOperand {read' read : ExpressionReader} (hread : Mirrors view read' read)
    {token left : SymbolId} {bound : Nat}
    (h : Parse.rightOperand read' token left bound (view s) = some s') :
    ∃ s₁, Parse.rightOperand read token left bound s = some s₁ ∧ view s₁ = s' := by
  obtain ⟨⟨right, s₁'⟩, h₁, rfl⟩ := Option.map_eq_some_iff.1 h
  obtain ⟨s₁, h₂, rfl⟩ := hread _ _ _ _ h₁
  exact ⟨_, Option.map_eq_some_iff.2 ⟨_, h₂, rfl⟩, v.setOperands s₁ token left right⟩

theorem leftDenotation {read' read : ExpressionReader} (hread : Mirrors view read' read)
    {token left : SymbolId} (h : Parse.leftDenotation read' token left (view s) = some s') :
    ∃ s₁, Parse.leftDenotation read token left s = some s₁ ∧ view s₁ = s' := by
  unfold Parse.leftDenotation at h ⊢
  rw [v.role] at h
  dsimp only at h ⊢
  split at h
  · exact v.rightOperand hread h
  · exact v.rightOperand hread h
  · cases h
    exact ⟨_, rfl, v.report s token .missingOperator⟩

theorem expression_operators {fuel' fuel : Nat} (hle : fuel' ≤ fuel) :
    Mirrors view (Parse.expression t fuel') (Parse.expression t fuel) ∧
      ∀ left, Mirrors view (operators t fuel' · left) (operators t fuel · left) := by
  -- a view has less fuel, so the induction is on that, below any other
  induction fuel' generalizing fuel with
  | zero =>
    refine ⟨fun bound s top s' h => ?_, fun left bound s top s' h => ?_⟩
    · rw [Parse.expression] at h
      cases h
    · dsimp only at h ⊢
      unfold operators at h ⊢
      rw [v.current_role] at h
      split at h
      · cases h
      · rename_i hbound
        cases h
        rw [if_neg hbound]
        exact ⟨s, rfl, rfl⟩
  | succ fuel' ih =>
    obtain ⟨fuel, rfl⟩ := Nat.exists_eq_succ_of_ne_zero (Nat.ne_of_gt (Nat.zero_lt_of_lt hle))
    obtain ⟨hexpression, hoperators⟩ := ih (Nat.le_of_succ_le_succ hle)
    refine ⟨fun bound s top s' h => ?_, fun left bound s top s' h => ?_⟩
    · rw [Parse.expression, ← v.advance, v.token] at h
      rw [Nat.succ_eq_add_one, Parse.expression]
      split at h
      · cases h
      · rename_i s₁' h₁
        obtain ⟨s₁, h₂, rfl⟩ := v.nullDenotation hexpression h₁
        obtain ⟨s₂, h₃, rfl⟩ := hoperators _ _ _ _ _ h
        rw [h₂]
        exact ⟨s₂, h₃, rfl⟩
    · dsimp only at h ⊢
      rw [operators, v.current_role, ← v.advance, v.token] at h
      rw [Nat.succ_eq_add_one, operators]
      split at h
      · rename_i hbound
        rw [if_pos hbound]
        split at h
        · cases h
        · rename_i s₁' h₁
          obtain ⟨s₁, h₂, rfl⟩ := v.leftDenotation hexpression h₁
          obtain ⟨s₂, h₃, rfl⟩ := hoperators _ _ _ _ _ h
          rw [h₂]
          exact ⟨s₂, h₃, rfl⟩
      · rename_i hbound
        cases h
        rw [if_neg hbound]
        exact ⟨s, rfl, rfl⟩

theorem expression {bound : Nat} {top : SymbolId}
    (h : Parse.expression t (view s).fuel bound (view s) = some (top, s')) :
    ∃ s₁, Parse.expression t s.fuel bound s = some (top, s₁) ∧ view s₁ = s' :=
  (v.expression_operators (v.fuel_le s)).1 _ _ _ _ h

/-! ## Members -/

variable {keyword name : SymbolId}

theorem dimension (h : Parse.dimension t name (view s) = some s') :
    ∃ s₁, Parse.dimension t name s = some s₁ ∧ view s₁ = s' := by
  obtain ⟨⟨length, s₁'⟩, h₁, rfl⟩ := Option.map_eq_some_iff.1 h
  obtain ⟨s₁, h₂, rfl⟩ := v.expression h₁
  refine ⟨_, Option.map_eq_some_iff.2 ⟨_, h₂, rfl⟩, ?_⟩
  dsimp only
  rw [v.kind, v.modifyDeclaration, v.expect]
  split
  · rfl
  · rw [v.report]

theorem declarator (h : Parse.declarator t keyword (view s) = some s') :
    ∃ s₁, Parse.declarator t keyword s = some s₁ ∧ view s₁ = s' := by
  unfold Parse.declarator at h ⊢
  rw [v.current_kind, v.token] at h
  dsimp only at h ⊢
  split at h
  · rename_i hname
    rw [if_pos hname]
    rw [← v.define, ← v.advance] at h
    generalize (s.define s.token keyword).advance t = s₁ at h ⊢
    rw [v.check, ← v.advance] at h
    split at h
    · rename_i hbracket
      rw [if_pos hbracket]
      exact v.dimension h
    · rename_i hbracket
      cases h
      rw [if_neg hbracket]
      exact ⟨s₁, rfl, rfl⟩
  · rename_i hname
    rw [if_neg hname]
    refine ⟨_, rfl, ?_⟩
    cases h
    rw [← v.report]
    generalize s.report s.token .memberNameMissing = s₁
    rw [v.check, v.atClose, ← v.advance]
    split <;> rfl

/-- What is looked at may have more fuel than the view, so the induction is on that of the view. -/
theorem declarators {fuel' fuel : Nat} (hle : fuel' ≤ fuel)
    (h : Parse.declarators t keyword fuel' (view s) = some s') :
    ∃ s₁, Parse.declarators t keyword fuel s = some s₁ ∧ view s₁ = s' := by
  induction fuel' generalizing fuel s with
  | zero =>
    unfold Parse.declarators at h ⊢
    split at h
    · cases h
    · rename_i s₁' h₁
      obtain ⟨s₁, h₂, rfl⟩ := v.declarator h₁
      rw [v.check] at h
      rw [h₂]
      split at h
      · cases h
      · rename_i hcomma
        cases h
        exact ⟨s₁, if_neg hcomma, rfl⟩
  | succ fuel' ih =>
    obtain ⟨fuel, rfl⟩ := Nat.exists_eq_succ_of_ne_zero (Nat.ne_of_gt (Nat.zero_lt_of_lt hle))
    have hle := Nat.le_of_succ_le_succ hle
    unfold Parse.declarators at h ⊢
    split at h
    · cases h
    · rename_i s₁' h₁
      obtain ⟨s₁, h₂, rfl⟩ := v.declarator h₁
      rw [v.check, ← v.advance] at h
      rw [h₂]
      split at h
      · rename_i hcomma
        obtain ⟨s₂, h₃, rfl⟩ := ih hle h
        exact ⟨s₂, (if_pos hcomma).trans h₃, rfl⟩
      · rename_i hcomma
        cases h
        exact ⟨s₁, if_neg hcomma, rfl⟩

theorem members (h : Parse.members t keyword (view s) = some s') :
    ∃ s₁, Parse.members t keyword s = some s₁ ∧ view s₁ = s' := by
  unfold Parse.members at h ⊢
  rw [v.isGlobal] at h
  split at h
  · rename_i hglobal
    cases h
    rw [if_pos hglobal]
    exact ⟨_, rfl, v.report s keyword .memberOutsideStruct⟩
  · rename_i hglobal
    rw [if_neg hglobal]
    obtain ⟨s₁', h₁, rfl⟩ := Option.map_eq_some_iff.1 h
    obtain ⟨s₁, h₂, rfl⟩ := v.declarators (v.fuel_le s) h₁
    refine ⟨_, Option.map_eq_some_iff.2 ⟨s₁, h₂, rfl⟩, ?_⟩
    rw [v.atClose, ← v.expect, ← v.reportExpected]
    split <;> rfl

/-! ## Structs -/

/-- What the reader of bodies answers in a view, the other one answers in the state itself. -/
def MirrorsBody (view : State → State) (read' read : State → Option State) : Prop :=
  ∀ s s', read' (view s) = some s' → ∃ s₁, read s = some s₁ ∧ view s₁ = s'

theorem structDeclaration {read' read : State → Option State} (hread : MirrorsBody view read' read)
    {name? : Option SymbolId}
    (h : Parse.structDeclaration t read' keyword (view s) = some (name?, s')) :
    ∃ s₁, Parse.structDeclaration t read keyword s = some (name?, s₁) ∧ view s₁ = s' := by
  unfold Parse.structDeclaration at h ⊢
  rw [v.current_kind, v.token] at h
  dsimp only at h ⊢
  -- each state on the way is the view of one of the other reading
  generalize (if s.current.kind = .name then some s.token else none) = tag? at h ⊢
  have hpassed : (if tag?.isSome then (view s).advance t else view s) =
      view (if tag?.isSome then s.advance t else s) := by
    rw [← v.advance]
    split <;> rfl
  rw [hpassed] at h
  generalize (if tag?.isSome then s.advance t else s) = s₁ at h ⊢
  rw [v.check] at h
  split at h
  · rename_i hforward
    rw [if_pos hforward]
    rw [← v.advance, v.forwardDeclaration, Option.some_inj] at h
    generalize Parse.forwardDeclaration keyword tag? (s₁.advance t) = r at h ⊢
    obtain ⟨tag?, s₂⟩ := r
    cases h
    exact ⟨s₂, rfl, rfl⟩
  · rename_i hforward
    rw [if_neg hforward]
    have hdefine : (tag?.elim (view s₁) fun tag => (view s₁).define tag keyword) =
        view (tag?.elim s₁ fun tag => s₁.define tag keyword) := by
      cases tag? with
      | none => rfl
      | some tag => exact (v.define s₁ tag keyword).symm
    rw [hdefine, ← v.expect, ← v.openScope] at h
    generalize ((tag?.elim s₁ fun tag => s₁.define tag keyword).expect t openBrace).openScope =
      inside at h ⊢
    obtain ⟨s₂', h₁, h₂⟩ := Option.map_eq_some_iff.1 h
    obtain ⟨s₂, h₃, rfl⟩ := hread _ _ h₁
    rw [v.scope, v.structEnd] at h₂
    rw [h₃, Option.map_some]
    generalize Parse.structEnd t keyword tag? inside.scope s₂ = r at h₂ ⊢
    obtain ⟨name?, s₃⟩ := r
    cases h₂
    exact ⟨s₃, rfl, rfl⟩

/-! ## Statements -/

theorem expressionStatement (h : Parse.expressionStatement t (view s) = some s') :
    ∃ s₁, Parse.expressionStatement t s = some s₁ ∧ view s₁ = s' := by
  obtain ⟨⟨top, s₁'⟩, h₁, rfl⟩ := Option.map_eq_some_iff.1 h
  obtain ⟨s₁, h₂, rfl⟩ := v.expression h₁
  refine ⟨_, Option.map_eq_some_iff.2 ⟨_, h₂, rfl⟩, ?_⟩
  have hexpression : ((view s₁).symbol top).isExpression = (s₁.symbol top).isExpression :=
    Symbol.eq_of_unplaced (fun _ => rfl) (v.symbol s₁ top)
  dsimp only
  rw [hexpression, ← v.report]
  split <;> rfl

theorem statement {read' read : State → Option State} (hread : MirrorsBody view read' read)
    {name? : Option SymbolId} (h : Parse.statement t read' (view s) = some (name?, s')) :
    ∃ s₁, Parse.statement t read s = some (name?, s₁) ∧ view s₁ = s' := by
  unfold Parse.statement at h ⊢
  rw [v.current_role, v.token, ← v.enterStatement] at h
  split at h
  · exact v.structDeclaration hread h
  · obtain ⟨s₁', h₁, h₂⟩ := Option.map_eq_some_iff.1 h
    cases h₂
    obtain ⟨s₁, h₃, rfl⟩ := v.members h₁
    exact ⟨s₁, Option.map_eq_some_iff.2 ⟨s₁, h₃, rfl⟩, rfl⟩
  · obtain ⟨s₁', h₁, h₂⟩ := Option.map_eq_some_iff.1 h
    cases h₂
    obtain ⟨s₁, h₃, rfl⟩ := v.expressionStatement h₁
    exact ⟨s₁, Option.map_eq_some_iff.2 ⟨s₁, h₃, rfl⟩, rfl⟩

theorem statements {fuel' fuel : Nat} (hle : fuel' ≤ fuel) {names : List SymbolId}
    (h : Parse.statements t fuel' (view s) = some (names, s')) :
    ∃ s₁, Parse.statements t fuel s = some (names, s₁) ∧ view s₁ = s' := by
  induction fuel' generalizing fuel s s' names with
  | zero =>
    unfold Parse.statements at h ⊢
    rw [v.atClose] at h
    split at h
    · rename_i hclose
      cases h
      rw [if_pos hclose]
      exact ⟨s, rfl, rfl⟩
    · cases h
  | succ fuel' ih =>
    obtain ⟨fuel, rfl⟩ := Nat.exists_eq_succ_of_ne_zero (Nat.ne_of_gt (Nat.zero_lt_of_lt hle))
    have hle := Nat.le_of_succ_le_succ hle
    unfold Parse.statements at h ⊢
    rw [v.atClose] at h
    split at h
    · rename_i hclose
      cases h
      rw [if_pos hclose]
      exact ⟨s, rfl, rfl⟩
    · rename_i hclose
      rw [if_neg hclose]
      -- the bodies of structs are read with the fuel that is left, on both sides
      have hbody : MirrorsBody view (fun s => (Parse.statements t fuel' s).map Prod.snd)
          (fun s => (Parse.statements t fuel s).map Prod.snd) := by
        intro s s' h
        obtain ⟨⟨names, s₁'⟩, h₁, rfl⟩ := Option.map_eq_some_iff.1 h
        obtain ⟨s₁, h₂, rfl⟩ := ih hle h₁
        exact ⟨s₁, Option.map_eq_some_iff.2 ⟨_, h₂, rfl⟩, rfl⟩
      dsimp only at h ⊢
      split at h
      · cases h
      · rename_i name? s₁' h₁
        obtain ⟨s₁, h₂, rfl⟩ := v.statement hbody h₁
        obtain ⟨⟨names, s₂'⟩, h₃, h₄⟩ := Option.map_eq_some_iff.1 h
        cases h₄
        obtain ⟨s₂, h₅, rfl⟩ := ih hle h₃
        rw [h₂]
        exact ⟨s₂, Option.map_eq_some_iff.2 ⟨_, h₅, rfl⟩, rfl⟩

/-- A whole reading of a view is the view of a whole reading. -/
theorem program {fuel' fuel : Nat} (hle : fuel' ≤ fuel) {names : List SymbolId}
    (h : Parse.program t fuel' (view s) = some (names, s')) :
    ∃ s₁, Parse.program t fuel s = some (names, s₁) ∧ view s₁ = s' := by
  induction fuel' generalizing fuel s s' names with
  | zero =>
    unfold Parse.program at h ⊢
    split at h
    · cases h
    · rename_i names s₁' h₁
      obtain ⟨s₁, h₂, rfl⟩ := v.statements (v.fuel_le s) h₁
      rw [v.check] at h
      rw [h₂]
      split at h
      · rename_i hend
        cases h
        exact ⟨s₁, if_pos hend, rfl⟩
      · cases h
  | succ fuel' ih =>
    -- there is at least as much fuel on this side, so one unit can be spent as well
    obtain ⟨fuel, rfl⟩ := Nat.exists_eq_succ_of_ne_zero (Nat.ne_of_gt (Nat.zero_lt_of_lt hle))
    have hle := Nat.le_of_succ_le_succ hle
    unfold Parse.program at h ⊢
    split at h
    · cases h
    · rename_i names s₁' h₁
      obtain ⟨s₁, h₂, rfl⟩ := v.statements (v.fuel_le s) h₁
      rw [v.check] at h
      rw [h₂]
      split at h
      · rename_i hend
        cases h
        exact ⟨s₁, if_pos hend, rfl⟩
      · rename_i hend
        obtain ⟨⟨others, s₂'⟩, h₃, h₄⟩ := Option.map_eq_some_iff.1 h
        cases h₄
        rw [v.token, v.current_value, ← v.report, ← v.advance] at h₃
        obtain ⟨s₂, h₅, rfl⟩ := ih hle h₃
        refine ⟨s₂, (if_neg hend).trans ?_, rfl⟩
        exact Option.map_eq_some_iff.2 ⟨_, h₅, rfl⟩

/-- Lexemes that come out of others by a view make the translation unit that comes out by it. -/
theorem ofLexemes (ht : t.Ends) {lexemes lexemes' : List Lexeme} {stop stop' : Position}
    (hstart : State.ofLexemes lexemes' stop' = view (.ofLexemes lexemes stop)) :
    ∃ names s, TranslationUnit.ofLexemes ht lexemes stop = .ofState names s ∧
      TranslationUnit.ofLexemes ht lexemes' stop' = .ofState names (view s) := by
  obtain ⟨names, s', hs', hunit⟩ := TranslationUnit.ofLexemes_eq_ofState ht lexemes' stop'
  rw [hstart, ← v.advance] at hs'
  obtain ⟨s, hs, rfl⟩ := v.program (v.fuel_le _) hs'
  refine ⟨names, s, Option.get_of_eq_some _ ?_, hunit⟩
  rw [TranslationUnit.ofLexemes?]
  dsimp only
  rw [hs]
  rfl

end View

end Parse

end CStruct
