import CStruct.Proofs.Parse.Readers

/-!
# Diagnostics only grow

No step of reading takes a diagnostic back. A state without errors has therefore been reached
through states without errors.
-/

namespace CStruct.Parse

open SymbolTable

namespace State

-- What has been reported in `s` is still there in `s'`, before anything else.
def Grows (s s' : State) : Prop := s.diagnostics.toList <+: s'.diagnostics.toList

def hasErrors (s : State) : Bool := s.diagnostics.hasErrors

def errors (s : State) : List Diagnostic := s.diagnostics.toList.filter Diagnostic.isError

namespace Grows

variable {s s' s'' : State}

theorem of_eq (h : s'.diagnostics = s.diagnostics) : s.Grows s' := by
  simp only [Grows, h, List.prefix_refl]

theorem refl (s : State) : s.Grows s := List.prefix_refl _

theorem trans (h : s.Grows s') (h' : s'.Grows s'') : s.Grows s'' := List.IsPrefix.trans h h'

theorem hasErrors_eq_false (h : s.Grows s') (h' : s'.hasErrors = false) : s.hasErrors = false := by
  rw [hasErrors, Diagnostics.hasErrors, List.any_eq_false] at *
  intro d hd
  exact h' d (h.subset hd)

theorem toList_eq_nil (h : s.Grows s') (h' : s'.diagnostics.toList = []) :
    s.diagnostics.toList = [] := by
  rw [Grows, h'] at h
  exact List.prefix_nil.1 h

end Grows

/-! ## Steps -/

theorem toList_report (s : State) (id : SymbolId) (problem : Problem) :
    (s.report id problem).diagnostics.toList =
      s.diagnostics.toList ++ [problem.diagnosticAt (s.symbol id).span] :=
  Diagnostics.toList_report _ _

theorem grows_reportAt (s : State) (span : Span) (problem : Problem) :
    s.Grows (s.reportAt span problem) := by
  show s.diagnostics.toList <+: (s.diagnostics.report _).toList
  rw [Diagnostics.toList_report]
  exact List.prefix_append _ _

theorem grows_report (s : State) (id : SymbolId) (problem : Problem) :
    s.Grows (s.report id problem) :=
  grows_reportAt s _ problem

theorem grows_reportExpected (s : State) (id : String) : s.Grows (s.reportExpected id) :=
  grows_reportAt s _ _

theorem grows_advance (t : SymbolTable) (s : State) : s.Grows (s.advance t) := by
  unfold State.advance
  dsimp only
  split
  · unfold readEnd
    split <;> exact .of_eq rfl
  · unfold State.read
    dsimp only
    split
    · exact .of_eq rfl
    · exact grows_reportAt _ _ _

theorem grows_expect (t : SymbolTable) (id : String) (s : State) : s.Grows (s.expect t id) := by
  unfold State.expect
  split
  · exact grows_advance t s
  · exact (grows_reportExpected s id).trans (grows_advance t _)

theorem grows_closeScope (s : State) : s.Grows s.closeScope := by
  unfold State.closeScope
  split <;> exact .of_eq rfl

theorem grows_openScope (s : State) : s.Grows s.openScope := .of_eq rfl

theorem grows_modifySymbol (s : State) (id : SymbolId) (f : Symbol → Symbol) :
    s.Grows (s.modifySymbol id f) :=
  .of_eq rfl

theorem grows_setBody (s : State) (tag : SymbolId) (body : ScopeId) :
    s.Grows (s.setBody tag body) :=
  grows_modifySymbol s tag _

theorem grows_define (s : State) (name type : SymbolId) : s.Grows (s.define name type) := by
  unfold State.define
  dsimp only
  split
  · exact (grows_report s name _).trans (.of_eq rfl)
  · exact .of_eq rfl

theorem grows_define? (s : State) (keyword : SymbolId) (tag? : Option SymbolId) :
    s.Grows (tag?.elim s fun tag => s.define tag keyword) := by
  cases tag? with
  | none => exact .refl s
  | some tag => exact grows_define s tag keyword

theorem grows_defineAlias (s : State) (name type struct : SymbolId) :
    s.Grows (s.defineAlias name type struct) := by
  have hwarn : s.Grows (if (s.local? (s.symbol name).value).isSome then s.warnDefined name else s) := by
    split
    · exact grows_report s name _
    · exact .refl s
  unfold State.defineAlias
  dsimp only
  generalize (if (s.local? (s.symbol name).value).isSome then s.warnDefined name else s) = s₁ at hwarn ⊢
  apply hwarn.trans
  split
  · exact .of_eq rfl
  · exact .of_eq rfl

theorem grows_reserve (s : State) (keyword : SymbolId) : s.Grows (s.reserve keyword) := by
  unfold State.reserve
  dsimp only
  split
  · exact .of_eq rfl
  · split
    · exact .refl s
    · split
      · exact (grows_report s keyword _).trans (.of_eq rfl)
      · exact .of_eq rfl

end State

open State

/-! ## Expressions -/

def ReaderGrows (read : ExpressionReader) : Prop :=
  ∀ bound s top s', read bound s = some (top, s') → s.Grows s'

theorem grows_nud {read : ExpressionReader} (hread : ReaderGrows read) {token : SymbolId}
    {s s' : State} (h : nullDenotation read token s = some s') : s.Grows s' := by
  unfold nullDenotation at h
  split at h
  · cases h
    exact .refl s
  · obtain ⟨⟨operand, s₁⟩, h₁, rfl⟩ := Option.map_eq_some_iff.1 h
    exact ((grows_reserve s token).trans (hread _ _ _ _ h₁)).trans (grows_modifySymbol _ _ _)
  · cases h
    exact grows_report s token _

theorem grows_rightOperand {read : ExpressionReader} (hread : ReaderGrows read)
    {token left : SymbolId} {bound : Nat} {s s' : State}
    (h : rightOperand read token left bound s = some s') : s.Grows s' := by
  obtain ⟨⟨right, s₁⟩, h₁, rfl⟩ := Option.map_eq_some_iff.1 h
  exact (hread _ _ _ _ h₁).trans (grows_modifySymbol _ _ _)

theorem grows_led {read : ExpressionReader} (hread : ReaderGrows read)
    {token left : SymbolId} {s s' : State} (h : leftDenotation read token left s = some s') :
    s.Grows s' := by
  unfold leftDenotation at h
  dsimp only at h
  split at h
  · exact grows_rightOperand hread h
  · exact grows_rightOperand hread h
  · cases h
    exact grows_report s token _

/-- The two readers call each other with less fuel, so this is shown of both at once. -/
theorem grows_expression_operators (t : SymbolTable) (fuel : Nat) :
    ReaderGrows (expression t fuel) ∧
      ∀ bound left s top s', operators t fuel bound left s = some (top, s') → s.Grows s' := by
  induction fuel with
  | zero =>
    refine ⟨fun bound s top s' h => ?_, fun bound left s top s' h => ?_⟩
    · rw [expression] at h
      cases h
    · rw [operators] at h
      split at h
      · cases h
      · cases h
        exact .refl s
  | succ fuel ih =>
    obtain ⟨hexpression, hoperators⟩ := ih
    refine ⟨fun bound s top s' h => ?_, fun bound left s top s' h => ?_⟩
    · rw [expression] at h
      split at h
      · cases h
      · rename_i s₁ h₁
        exact ((grows_advance t s).trans (grows_nud hexpression h₁)).trans
          (hoperators _ _ _ _ _ h)
    · rw [operators] at h
      split at h
      · split at h
        · cases h
        · rename_i s₁ h₁
          exact ((grows_advance t s).trans (grows_led hexpression h₁)).trans
            (hoperators _ _ _ _ _ h)
      · cases h
        exact .refl s

theorem grows_expression {t : SymbolTable} {fuel bound : Nat} {s s' : State} {top : SymbolId}
    (h : expression t fuel bound s = some (top, s')) : s.Grows s' :=
  (grows_expression_operators t fuel).1 _ _ _ _ h

/-! ## Members -/

variable {t : SymbolTable} {s s' : State} {keyword name : SymbolId} {fuel : Nat}

theorem grows_dimension (h : dimension t name s = some s') : s.Grows s' := by
  obtain ⟨⟨length, s₁⟩, h₁, rfl⟩ := Option.map_eq_some_iff.1 h
  dsimp only
  have h₂ : s₁.Grows (if (s₁.symbol length).kind = .literal then s₁
      else s₁.report length .dimensionNotLiteral) := by
    split
    · exact .refl s₁
    · exact grows_report s₁ length _
  exact (((grows_expression h₁).trans h₂).trans (grows_expect t "]" _)).trans
    (grows_modifySymbol _ _ _)

theorem grows_declarator (h : declarator t keyword s = some s') : s.Grows s' := by
  unfold declarator at h
  split at h
  · dsimp only at h
    have h₁ := (grows_define s s.token keyword).trans (grows_advance t _)
    split at h
    · exact (h₁.trans (grows_advance t _)).trans (grows_dimension h)
    · cases h
      exact h₁
  · cases h
    have h₁ := grows_report s s.token .memberNameMissing
    split
    · exact h₁
    · exact h₁.trans (grows_advance t _)

theorem grows_declarators (h : declarators t keyword fuel s = some s') : s.Grows s' := by
  induction fuel using Nat.strongRecOn generalizing s with
  | ind fuel ih =>
    obtain ⟨s₁, h₁, hcases⟩ := declarators_cases h
    rcases hcases with ⟨-, rfl⟩ | ⟨-, rest, rfl, h₂⟩
    · exact grows_declarator h₁
    · exact ((grows_declarator h₁).trans (grows_advance t s₁)).trans
        (ih rest (Nat.lt_succ_self rest) h₂)

theorem grows_members (h : members t keyword s = some s') : s.Grows s' := by
  unfold members at h
  split at h
  · cases h
    exact grows_report s keyword _
  · obtain ⟨s₁, h₁, rfl⟩ := Option.map_eq_some_iff.1 h
    apply (grows_declarators h₁).trans
    split
    · exact grows_reportExpected s₁ _
    · exact grows_expect t _ s₁

/-! ## Structs -/

theorem grows_forwardDeclaration (tag? : Option SymbolId) :
    s.Grows (forwardDeclaration keyword tag? s).2 := by
  unfold forwardDeclaration
  split
  · exact grows_report s keyword _
  · split
    · exact .refl s
    · exact grows_define s _ keyword

theorem grows_typedefName (t : SymbolTable) (s : State) (keyword : SymbolId)
    (tag? : Option SymbolId) (body : ScopeId) :
    s.Grows (typedefName t keyword tag? body s).2 := by
  unfold typedefName
  split
  · dsimp only
    split
    · exact (grows_defineAlias s _ keyword _).trans (grows_advance t _)
    · have h₁ := (grows_define s s.token keyword).trans (grows_setBody _ s.token body)
      exact h₁.trans (grows_advance t _)
  · exact .refl s

theorem grows_structEnd (t : SymbolTable) (s : State) (keyword : SymbolId)
    (tag? : Option SymbolId) (body : ScopeId) :
    s.Grows (structEnd t keyword tag? body s).2 := by
  have h₁ := (grows_closeScope s).trans (grows_expect t closeBrace s.closeScope)
  have h₂ : (s.closeScope.expect t closeBrace).Grows
      (tag?.elim (s.closeScope.expect t closeBrace) fun tag =>
        (s.closeScope.expect t closeBrace).setBody tag body) := by
    cases tag? with
    | none => exact .refl _
    | some tag => exact grows_setBody _ tag body
  unfold structEnd
  dsimp only
  apply (h₁.trans h₂).trans
  apply (grows_typedefName t _ keyword tag? body).trans
  split
  · exact (grows_report _ keyword _).trans (grows_expect t _ _)
  · exact grows_expect t _ _

theorem grows_structDeclaration {readBody : State → Option State}
    (hbody : ∀ s s', readBody s = some s' → s.Grows s') {name? : Option SymbolId}
    (h : structDeclaration t readBody keyword s = some (name?, s')) : s.Grows s' := by
  unfold structDeclaration at h
  dsimp only at h
  generalize (if s.current.kind = .name then some s.token else none) = tag? at h
  have h₁ : s.Grows (if tag?.isSome then s.advance t else s) := by
    split
    · exact grows_advance t s
    · exact .refl s
  generalize (if tag?.isSome then s.advance t else s) = s₁ at h h₁
  apply h₁.trans
  split at h
  · have h₂ : (forwardDeclaration keyword tag? (s₁.advance t)).2 = s' :=
      congrArg Prod.snd (Option.some.inj h)
    rw [← h₂]
    exact (grows_advance t s₁).trans (grows_forwardDeclaration tag?)
  · obtain ⟨s₂, h₂, h₃⟩ := Option.map_eq_some_iff.1 h
    have hopen : s₁.Grows
        ((tag?.elim s₁ fun tag => s₁.define tag keyword).expect t openBrace).openScope :=
      ((grows_define? s₁ keyword tag?).trans (grows_expect t openBrace _)).trans (grows_openScope _)
    apply (hopen.trans (hbody _ _ h₂)).trans
    have h₄ := congrArg Prod.snd h₃
    rw [← show _ = s' from h₄]
    exact grows_structEnd t s₂ keyword tag? _

/-! ## Statements -/

theorem grows_enterStatement (t : SymbolTable) (s : State) : s.Grows (s.enterStatement t) :=
  ((grows_advance t s).trans (grows_reserve _ _)).trans (grows_modifySymbol _ _ _)

theorem grows_expressionStatement (h : expressionStatement t s = some s') : s.Grows s' := by
  obtain ⟨⟨top, s₁⟩, h₁, rfl⟩ := Option.map_eq_some_iff.1 h
  apply (grows_expression h₁).trans
  dsimp only
  split
  · exact .refl s₁
  · exact grows_report s₁ top _

theorem grows_statement {readBody : State → Option State}
    (hbody : ∀ s s', readBody s = some s' → s.Grows s') {name? : Option SymbolId}
    (h : statement t readBody s = some (name?, s')) : s.Grows s' := by
  unfold statement at h
  split at h
  · exact (grows_enterStatement t s).trans (grows_structDeclaration hbody h)
  · obtain ⟨s₁, h₁, h₂⟩ := Option.map_eq_some_iff.1 h
    cases h₂
    exact (grows_enterStatement t s).trans (grows_members h₁)
  · obtain ⟨s₁, h₁, h₂⟩ := Option.map_eq_some_iff.1 h
    cases h₂
    exact grows_expressionStatement h₁

theorem grows_statements {names : List SymbolId} (h : statements t fuel s = some (names, s')) :
    s.Grows s' := by
  induction fuel using Nat.strongRecOn generalizing s s' names with
  | ind fuel ih =>
    rcases statements_cases h with ⟨-, -, rfl⟩ | ⟨-, rest, name?, s₁, others, rfl, -, h₁, h₂⟩
    · exact .refl _
    · have hlt := Nat.lt_succ_self rest
      have hbody (s s' : State) (h : bodyReader t rest s = some s') : s.Grows s' := by
        obtain ⟨names, h⟩ := bodyReader_cases h
        exact ih rest hlt h
      exact (grows_statement hbody h₁).trans (ih rest hlt h₂)

theorem grows_bodyReader (h : bodyReader t fuel s = some s') : s.Grows s' := by
  obtain ⟨names, h⟩ := bodyReader_cases h
  exact grows_statements h

theorem grows_program {names : List SymbolId} (h : program t fuel s = some (names, s')) :
    s.Grows s' := by
  induction fuel using Nat.strongRecOn generalizing s s' names with
  | ind fuel ih =>
    obtain ⟨first, s₁, h₁, hcases⟩ := program_cases h
    rcases hcases with ⟨-, -, rfl⟩ | ⟨-, rest, others, rfl, -, h₂⟩
    · exact grows_statements h₁
    · have hreport := grows_report s₁ s₁.token (.unexpected s₁.current.value)
      exact (((grows_statements h₁).trans hreport).trans (grows_advance t _)).trans
        (ih rest (Nat.lt_succ_self rest) h₂)

end CStruct.Parse
