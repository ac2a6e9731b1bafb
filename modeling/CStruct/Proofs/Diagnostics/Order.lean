import CStruct.Proofs.Diagnostics.Lined

/-!
# The order of diagnostics

Problems are reported as they are met, at the token or at what stands right before it, so the
diagnostics of a C source are in the order of the places where they start. There is one exception:
that a struct has no name is known behind its body only, but it is reported at the keyword, so it
comes behind what is wrong inside the struct.
-/

namespace CStruct

/-- A diagnostic does not start before one that was reported earlier, unless it says that a struct
has no name. -/
def Diagnostic.InOrder (earlier later : Diagnostic) : Prop :=
  earlier.span.start ≤ later.span.start ∨ later = Problem.anonymousStruct.diagnosticAt later.span

namespace Diagnostics

variable {ds : Diagnostics} {d : Diagnostic} {p q : Position}

/-- The diagnostics are in order, and none starts behind `p`. -/
structure Tidy (ds : Diagnostics) (p : Position) : Prop where
  inOrder : ds.toList.Pairwise Diagnostic.InOrder
  start_le : ∀ d ∈ ds.toList, d.span.start ≤ p

theorem tidy_empty (p : Position) : ({} : Diagnostics).Tidy p :=
  ⟨.nil, fun _ hd => absurd hd List.not_mem_nil⟩

theorem Tidy.mono (h : ds.Tidy p) (hpq : p ≤ q) : ds.Tidy q :=
  ⟨h.inOrder, fun d hd => Position.le_trans (h.start_le d hd) hpq⟩

theorem Tidy.report (h : ds.Tidy p) (hpq : p ≤ q) (hd : d.span.start ≤ q)
    (horder : p ≤ d.span.start ∨ d = Problem.anonymousStruct.diagnosticAt d.span) :
    (ds.report d).Tidy q := by
  constructor
  · rw [toList_report]
    refine List.pairwise_append.2 ⟨h.inOrder, List.pairwise_singleton _ _, fun e he f hf => ?_⟩
    rw [List.mem_singleton.1 hf]
    exact horder.imp_left (Position.le_trans (h.start_le e he))
  · rw [toList_report]
    intro e he
    rcases List.mem_append.1 he with he | he
    · exact Position.le_trans (h.start_le e he) hpq
    · rw [List.mem_singleton.1 he]
      exact hd

end Diagnostics

namespace Parse

open SymbolTable State

variable {s s' : State} {keyword name id : SymbolId} {tag? : Option SymbolId} {fuel : Nat}
  {names : List SymbolId}

namespace State

/-- All that has been reported is in order and starts no later than the symbol `id`, which has been
read. -/
structure Reported (s : State) (id : SymbolId) : Prop extends Lined s where
  le : id ≤ s.token
  tidy : s.diagnostics.Tidy (s.symbol id).span.start

namespace Reported

/-! ## Nothing is reported -/

theorem lt (h : s.Reported id) : id < s.symbols.size := Nat.lt_of_le_of_lt h.le h.token_lt

/-- What starts no later than a symbol starts no later than one further on. -/
theorem mono (h : s.Reported id) {i : SymbolId} (hle : id ≤ i) (hi : i ≤ s.token) :
    s.Reported i :=
  ⟨h.toLined, hi, h.tidy.mono (h.start_le hle (Nat.lt_of_le_of_lt hi h.token_lt))⟩

theorem current (h : s.Reported id) : s.Reported s.token := h.mono h.le (Nat.le_refl _)

theorem of_trace (h : s.Reported id) (htrace : Trace cStructs s s')
    (htidy : s'.diagnostics.Tidy (s.symbol id).span.start) : s'.Reported id where
  toLined := h.toLined.trace htrace
  le := Nat.le_trans h.le (htrace.token_le h.toLatest)
  tidy := by
    rw [htrace.span h.lt]
    exact htidy

theorem of_diagnostics (h : s.Reported id) (htrace : Trace cStructs s s')
    (hsame : s'.diagnostics = s.diagnostics) : s'.Reported id := by
  apply h.of_trace htrace
  rw [hsame]
  exact h.tidy

theorem advance (h : s.Reported id) : (s.advance cStructs).Reported id :=
  h.of_diagnostics (.advance s) (diagnostics_advance h.spelled)

theorem modifyDeclaration (h : s.Reported id) (d : SymbolId) (f : Declaration → Declaration) :
    (s.modifyDeclaration d f).Reported id :=
  h.of_diagnostics (.of_move (.edit s d (edits_declaration _))) rfl

theorem setBody (h : s.Reported id) (tag : SymbolId) (body : ScopeId) :
    (s.setBody tag body).Reported id :=
  h.modifyDeclaration tag _

theorem setBody? (h : s.Reported id) (tag? : Option SymbolId) (body : ScopeId) :
    (tag?.elim s fun tag => s.setBody tag body).Reported id := by
  cases tag? with
  | none => exact h
  | some tag => exact h.setBody tag body

theorem of_scopes (h : s.Reported id) (scopes : Array Scope) (scope : ScopeId)
    (outer : List ScopeId) : Reported { s with scopes, scope, outer } id :=
  ⟨⟨⟨h.size, h.atEnd⟩, h.toSimple.of_eq rfl rfl rfl rfl, h.starts⟩, h.le, h.tidy⟩

theorem openScope (h : s.Reported id) : s.openScope.Reported id := h.of_scopes _ _ _

theorem closeScope (h : s.Reported id) : s.closeScope.Reported id := by
  unfold State.closeScope
  split
  · exact h
  · exact h.of_scopes _ _ _

/-! ## Something is reported -/

theorem report (h : s.Reported id) (problem : Problem) : (s.report id problem).Reported id :=
  h.of_trace (.report s id problem)
    (h.tidy.report (Position.le_refl _) (Position.le_refl _) (.inl (Position.le_refl _)))

/-- That a struct has no name may be reported further back. -/
theorem anonymousStruct (h : s.Reported id) (hk : keyword ≤ id) :
    (s.report keyword .anonymousStruct).Reported id :=
  h.of_trace (.report s keyword .anonymousStruct)
    (h.tidy.report (Position.le_refl _) (h.start_le hk h.lt) (.inr rfl))

/-- A name that is defined, or a keyword that is reserved, may be worth a warning. -/
theorem of_warning (h : s.Reported id) (htrace : Trace cStructs s s')
    (hwarned : s'.diagnostics = s.diagnostics ∨
      s'.diagnostics = (s.warnDefined id).diagnostics) : s'.Reported id := by
  rcases hwarned with hsame | hwarned
  · exact h.of_diagnostics htrace hsame
  · apply h.of_trace htrace
    rw [hwarned]
    exact (h.report _).tidy

theorem define (h : s.Reported name) (type : SymbolId) : (s.define name type).Reported name := by
  apply h.of_warning (.define s name type)
  unfold State.define
  dsimp only
  split
  · exact .inr rfl
  · exact .inl rfl

theorem defineAlias (h : s.Reported name) (type struct : SymbolId) :
    (s.defineAlias name type struct).Reported name := by
  apply h.of_warning (.defineAlias s name type struct)
  unfold State.defineAlias
  dsimp only
  split
  · split
    · exact .inr rfl
    · exact .inl rfl
  · split
    · exact .inr rfl
    · exact .inl rfl

theorem reserve (h : s.Reported keyword) : (s.reserve keyword).Reported keyword := by
  apply h.of_warning (.reserve s keyword)
  unfold State.reserve
  dsimp only
  split
  · exact .inl rfl
  · split
    · exact .inl rfl
    · split
      · exact .inr rfl
      · exact .inl rfl

theorem expect (h : s.Reported s.token) (other : String) :
    (s.expect cStructs other).Reported (s.expect cStructs other).token := by
  unfold State.expect
  split
  · exact h.advance.current
  · exact (h.report (.expected other s.current.value)).advance.current

theorem enterStatement (h : s.Reported s.token) :
    (s.enterStatement cStructs).Reported s.token :=
  h.advance.reserve.of_diagnostics
    (.of_move (.edit _ s.token (edits_kind (by decide) (·.first?) (·.second?)))) rfl

end Reported

end State

/-! ## Members -/

/-- Of an expression, only the first symbol is reported: nothing binds it to another. -/
theorem reported_expression (h : s.Reported s.token) {m : Nat} {top : SymbolId}
    (hread : expression cStructs fuel m s = some (top, s')) :
    top = s.token ∧ s'.Reported s.token := by
  obtain ⟨n, s₁, rfl, hnull, hoperators⟩ := expression_cases hread
  have hfirst : s₁.Reported s.token := by
    rcases nullDenotation_cases hnull with ⟨-, rfl⟩ | ⟨hprefixed, -⟩ | ⟨-, rfl⟩
    · exact h.advance
    · exact absurd hprefixed (h.advance.nud s.token)
    · exact h.advance.report .undefined
  rcases operators_cases hoperators with ⟨-, heq⟩ | ⟨hpower, -⟩
  · cases heq
    exact ⟨rfl, hfirst⟩
  · rw [show s₁.current.role.bindingPower = 0 from hfirst.power _] at hpower
    exact absurd hpower (Nat.not_lt_zero m)

theorem reported_dimension (h : s.Reported s.token)
    (hread : dimension cStructs name s = some s') : s'.Reported s'.token := by
  obtain ⟨length, s₁, hlength, rfl⟩ := dimension_cases hread
  obtain ⟨rfl, h₁⟩ := reported_expression h hlength
  have hliteral : (s₁.checkLength s.token).Reported s.token := by
    unfold State.checkLength
    split
    · exact h₁
    · exact h₁.report _
  rw [token_modifyDeclaration]
  exact (hliteral.current.expect "]").modifyDeclaration name _

theorem reported_declarator (h : s.Reported s.token)
    (hread : declarator cStructs keyword s = some s') : s'.Reported s'.token := by
  unfold declarator at hread
  split at hread
  · have hname := (h.define keyword).advance.current
    dsimp only at hread
    split at hread
    · exact reported_dimension hname.advance.current hread
    · cases hread
      exact hname
  · cases hread
    have hreport := h.report .memberNameMissing
    split
    · exact hreport
    · exact hreport.advance.current

theorem reported_declarators (h : s.Reported s.token)
    (hread : declarators cStructs keyword fuel s = some s') : s'.Reported s'.token := by
  induction fuel using Nat.strongRecOn generalizing s with
  | ind fuel ih =>
    obtain ⟨s₁, h₁, hcases⟩ := declarators_cases hread
    have hfirst := reported_declarator h h₁
    rcases hcases with ⟨-, rfl⟩ | ⟨-, rest, rfl, h₂⟩
    · exact hfirst
    · exact ih rest (Nat.lt_succ_self rest) hfirst.advance.current h₂

theorem reported_members (h : s.Reported keyword)
    (hread : members cStructs keyword s = some s') : s'.Reported s'.token := by
  unfold members at hread
  split at hread
  · cases hread
    exact (h.report .memberOutsideStruct).current
  · obtain ⟨s₁, h₁, rfl⟩ := Option.map_eq_some_iff.1 hread
    have hall := reported_declarators h.current h₁
    split
    · exact hall.report (.expected ";" s₁.current.value)
    · exact hall.expect ";"

/-! ## Structs -/

/-- A forward declaration reports nothing but at the tag or, if there is none, at the keyword. -/
theorem reported_forwardDeclaration (h : s.Reported (tag?.getD keyword)) :
    (forwardDeclaration keyword tag? s).2.Reported (tag?.getD keyword) := by
  cases tag? with
  | none => exact h.report .structNameMissing
  | some tag =>
    unfold forwardDeclaration
    dsimp only
    split
    · exact h
    · exact h.define keyword

theorem reported_define? (h : s.Reported (tag?.getD keyword)) :
    (tag?.elim s fun tag => s.define tag keyword).Reported (tag?.getD keyword) := by
  cases tag? with
  | none => exact h
  | some tag => exact h.define keyword

theorem reported_typedefName (h : s.Reported s.token) (keyword : SymbolId)
    (tag? : Option SymbolId) (body : ScopeId) :
    (typedefName cStructs keyword tag? body s).2.Reported
      (typedefName cStructs keyword tag? body s).2.token := by
  unfold typedefName
  split
  · dsimp only
    split
    · exact (h.defineAlias keyword _).advance.current
    · exact ((h.define keyword).setBody s.token body).advance.current
  · exact h

theorem reported_structEnd (h : s.Reported s.token) (hk : keyword ≤ s.token) (body : ScopeId) :
    (structEnd cStructs keyword tag? body s).2.Reported
      (structEnd cStructs keyword tag? body s).2.token := by
  have hclosed : s.closeScope.Reported s.closeScope.token := h.closeScope.current
  have hkeyword : keyword ≤ s.closeScope.token := Nat.le_trans hk h.closeScope.le
  have hbrace := (hclosed.expect closeBrace).setBody? tag? body
  have hname := reported_typedefName hbrace.current keyword tag? body
  have htrace := ((Trace.expect closeBrace s.closeScope).trans (.of_setBody? _ tag? body)).trans
    (.of_typedefName cStructs _ keyword tag? body)
  have hpassed := Nat.le_trans hkeyword (htrace.token_le hclosed.toLatest)
  unfold structEnd
  dsimp only
  split
  · exact (hname.anonymousStruct hpassed).expect ";"
  · exact hname.expect ";"

/-- What has been reported starts no later than the tag or, if there is none, than the keyword. -/
theorem reported_passHead (h : s.Reported s.token) :
    (s.passHead cStructs).Reported ((s.enterStatement cStructs).tag?.getD s.token) := by
  have hkeyword := h.enterStatement
  unfold State.passHead State.passTag State.tag?
  split
  · exact hkeyword.current.advance
  · exact hkeyword

/-! ## Statements -/

section Bodies

variable {name? : Option SymbolId}
  (hbody : ∀ s s' : State, s.Reported s.token → bodyReader cStructs fuel s = some s' →
    s'.Reported s'.token)
include hbody

theorem reported_struct (h : s.Reported s.token) (hstd : s.current.role.std = some .struct)
    (hread : statement cStructs (bodyReader cStructs fuel) s = some (name?, s')) :
    s'.Reported s'.token := by
  have hhead := reported_passHead h
  rcases statement_struct_cases hstd hread with ⟨-, heq⟩ | ⟨s₂, -, h₂, heq⟩
  · rw [heq]
    exact (reported_forwardDeclaration hhead.advance).current
  · have hopen : (s.passOpenBrace cStructs).openScope.Reported (s.passOpenBrace cStructs).token :=
      ((reported_define? hhead).current.expect openBrace).openScope
    rw [heq]
    apply reported_structEnd (hbody _ _ hopen.current h₂)
    calc s.token
      _ ≤ (s.passOpenBrace cStructs).token := (trace_passOpenBrace cStructs s).token_le h.toLatest
      _ ≤ (s.passOpenBrace cStructs).openScope.token := hopen.le
      _ ≤ s₂.token := (Trace.of_bodyReader h₂).token_le hopen.toLatest

theorem reported_statement (h : s.Reported s.token)
    (hread : statement cStructs (bodyReader cStructs fuel) s = some (name?, s')) :
    s'.Reported s'.token := by
  cases hstd : s.current.role.std with
  | some std =>
    cases std with
    | struct => exact reported_struct hbody h hstd hread
    | member =>
      rw [statement, hstd] at hread
      obtain ⟨s₁, h₁, heq⟩ := Option.map_eq_some_iff.1 hread
      cases heq
      exact reported_members h.enterStatement h₁
  | none =>
    rw [statement, hstd] at hread
    obtain ⟨s₁, h₁, heq⟩ := Option.map_eq_some_iff.1 hread
    cases heq
    obtain ⟨⟨top, s₂⟩, h₂, rfl⟩ := Option.map_eq_some_iff.1 h₁
    obtain ⟨rfl, hexpression⟩ := reported_expression h h₂
    dsimp only
    split
    · exact hexpression.current
    · exact (hexpression.report .badExpressionStatement).current

end Bodies

theorem reported_statements (h : s.Reported s.token)
    (hread : statements cStructs fuel s = some (names, s')) : s'.Reported s'.token := by
  -- on the fuel, which each statement spends, also for those in its body
  induction fuel using Nat.strongRecOn generalizing s s' names with
  | ind fuel ih =>
    rcases statements_cases hread with
      ⟨-, -, rfl⟩ | ⟨-, rest, name?, s₁, others, rfl, -, h₁, h₂⟩
    · exact h
    · have hlt := Nat.lt_succ_self rest
      have hbody (s s' : State) (h : s.Reported s.token)
          (hread : bodyReader cStructs rest s = some s') : s'.Reported s'.token := by
        obtain ⟨names, hread⟩ := bodyReader_cases hread
        exact ih rest hlt h hread
      exact ih rest hlt (reported_statement hbody h h₁) h₂

theorem reported_program (h : s.Reported s.token)
    (hread : program cStructs fuel s = some (names, s')) : s'.Reported s'.token := by
  induction fuel using Nat.strongRecOn generalizing s s' names with
  | ind fuel ih =>
    obtain ⟨first, s₁, h₁, hcases⟩ := program_cases hread
    have hfirst := reported_statements h h₁
    rcases hcases with ⟨-, -, rfl⟩ | ⟨-, rest, others, rfl, -, h₂⟩
    · exact hfirst
    · exact ih rest (Nat.lt_succ_self rest) (hfirst.report _).advance.current h₂

theorem reported_ofSource (source : String) :
    (State.ofSource source).Reported (State.ofSource source).token where
  toLined := lined_ofSource source
  le := Nat.le_refl _
  tidy := by
    rw [State.ofSource, diagnostics_advance fun l hl => Lexicon.isSpelled_of_mem_lexemes hl]
    exact Diagnostics.tidy_empty _

end Parse

namespace TranslationUnit

open Parse

/-- The diagnostics of a C source are in the order of the places where they start, but for those of
structs without a name, which come once the struct has been read. -/
theorem diagnostics_inOrder (source : String) :
    (ofSource source).diagnostics.toList.Pairwise Diagnostic.InOrder := by
  have hread : ofLexemes? SymbolTable.cStructs (Lexicon.lexemes source).1
      (Lexicon.lexemes source).2.position = some (ofSource source) := (Option.some_get _).symm
  obtain ⟨⟨names, s⟩, hprogram, heq⟩ := Option.map_eq_some_iff.1 hread
  rw [← heq]
  exact (reported_program (reported_ofSource source) hprogram).tidy.inOrder

/-- What is wrong with the member stands behind the keyword, at which the struct is reported. -/
theorem diagnostics_of_anonymousStruct :
    ¬(ofSource "struct \x7b int 1; \x7d;").diagnostics.toList.Pairwise fun d e =>
      d.span.start ≤ e.span.start := by
  decide +kernel

end TranslationUnit

end CStruct
