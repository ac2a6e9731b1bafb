import CStruct.Proofs.Grammar.Sound
import CStruct.Proofs.Redundant.Structs
import CStruct.Proofs.Scopes.Passages

/-!
# Reading without errors

What is expected is there if no error is reported, so that each reader takes a passage: braces are
passed around the bodies of structs only. A name is declared right after it has been read, in the
scope that it was read in.
-/

namespace CStruct.Parse

open SymbolTable State

variable {s s' s₁ : State} {id keyword name tag : SymbolId} {fuel : Nat} {tag? : Option SymbolId}

namespace State

/-! ## New names -/

/-- A name at the token was read in the scope that is open, and is not declared. -/
def NewName (s : State) : Prop :=
  s.current.kind = .name → s.current.scope? = some s.scope ∧ s.Undeclared s.token

theorem Adds.size {x : Symbol} {ls : List Lexeme} {endSymbol? : Option SymbolId}
    (h : s.Adds s' [x] ls endSymbol?) : s'.symbols.size = s.symbols.size + 1 := by
  rw [← Array.length_toList, h.symbols, List.length_append, Array.length_toList]
  rfl

theorem Adds.symbol_size {x : Symbol} {ls : List Lexeme} {endSymbol? : Option SymbolId}
    (h : s.Adds s' [x] ls endSymbol?) : s'.symbol s.symbols.size = x := by
  have hget : s'.symbols.toList[s.symbols.size]? = some x := by
    rw [h.symbols, List.getElem?_append_right (by simp)]
    simp
  rw [State.symbol, Array.getD_eq_getD_getElem?, ← Array.getElem?_toList, hget, Option.getD_some]

/-- What has been read is a name only if it was made of one, in the scope that is open. -/
theorem Legible.newName_advance (h : s.Legible) : (s.advance cStructs).NewName := by
  intro hname
  have he : s.endSymbol? = none :=
    (Spares.advance 0 cStructs s).endSymbol? (h.advance.not_end_of_name hname)
  refine ⟨?_, undeclared_advance he⟩
  rw [current, token_advance he] at hname ⊢
  rw [scope_advance.1]
  rcases advance_cases cStructs s with ⟨l, ls, -, hadds⟩ | ⟨-, -, hadds⟩ | ⟨-, hsome, -⟩
  · rw [hadds.symbol_size] at hname ⊢
    change kindOf l.kind = .name at hname
    cases hkind : l.kind with
    | name => exact if_pos hkind
    | _ =>
      rw [hkind] at hname
      cases hname
  · rw [hadds.symbol_size] at hname
    cases hname
  · rw [he] at hsome
    cases hsome

theorem NewName.of_eq (h : s.NewName) (token : s'.token = s.token) (scope : s'.scope = s.scope)
    (symbol : s'.symbol s.token = s.symbol s.token) : s'.NewName := by
  unfold NewName Undeclared current at *
  rw [token, symbol, scope]
  exact h

end State

/-! ## Steps without errors -/

/-- What is expected is there, or an error is reported. -/
theorem check_of_hasErrors {other : String}
    (hclean : (s.expect cStructs other).hasErrors = false) : s.check other = true := by
  cases hcheck : s.check other with
  | false =>
    rw [hasErrors_expect hcheck] at hclean
    cases hclean
  | true => rfl

namespace Passage

theorem pass (s : State) (hother : ¬IsBrace s.current.value) : Passage s (s.advance cStructs) :=
  .advance (.refl s) hother

theorem pass_name (hs : s.Legible) (hname : s.current.kind = .name) :
    Passage s (s.advance cStructs) :=
  .pass s (hs.not_brace_of_name hname)

theorem pass_check (hs : s.Legible) {other : String} (hcheck : s.check other = true)
    (hother : ¬IsBrace other) : Passage s (s.advance cStructs) :=
  .pass s (hs.not_brace_of_check hcheck hother)

theorem expect (hs : s.Legible) {other : String} (hother : ¬IsBrace other)
    (hclean : (s.expect cStructs other).hasErrors = false) :
    Passage s (s.expect cStructs other) := by
  have hcheck := check_of_hasErrors hclean
  rw [expect_of_check hcheck]
  exact pass_check hs hcheck hother

/-- What is known of a name changes, but for its body. -/
theorem modifyDeclaration (s : State) (id : SymbolId) {f : Declaration → Declaration}
    (hf : ∀ x, (f x).innerScope? = x.innerScope?) : Passage s (s.modifyDeclaration id f) := by
  apply Passage.edit (.refl s) id (edits_declaration f) (touches_declaration (·.map f))
  refine ⟨fun hname => hname, fun hdeclared => ⟨?_, rfl, ?_⟩⟩
  · rw [Option.isSome_map]
    exact hdeclared
  · change ((s.symbol id).declaration?.map f).bind (·.innerScope?) = (s.symbol id).innerScope?
    rw [Symbol.innerScope?]
    cases (s.symbol id).declaration? with
    | none => rfl
    | some x => exact hf x

theorem reserve (s : State) {keyword : SymbolId} (hlt : keyword < s.symbols.size) :
    Passage s (s.reserve keyword) := by
  rcases reserve_cases s keyword with heq | ⟨ds, -, heq⟩
  · rw [heq]
    exact .refl s
  · rw [heq]
    have hmark : Passage s
        (State.modifySymbol { s with diagnostics := ds } keyword ({ · with reserved := true })) :=
      .edit (.report (.refl s) ds) keyword edits_reserved touches_reserved
        ⟨fun hname => hname, fun hdeclared => ⟨hdeclared, rfl, rfl⟩⟩
    apply hmark.bind
    · rw [State.modifySymbol, Array.size_modify]
      exact hlt
    · exact touches_reserved.value_eq { s with diagnostics := ds } keyword keyword

section Names

variable (hname : (s.symbol name).kind = .name) (hscope : (s.symbol name).scope? = some s.scope)
  (hnew : s.Undeclared name) (hlt : name < s.symbols.size)
include hname hscope hnew hlt

theorem define (keyword : SymbolId) : Passage s (s.define name keyword) := by
  obtain ⟨ds, heq⟩ := define_eq s name keyword
  rw [heq]
  have hreport : Passage s { s with diagnostics := ds } := .report (.refl s) ds
  apply (hreport.declare keyword hname hscope hnew).bind
  · rw [State.declare, State.modifySymbol, Array.size_modify]
    exact hlt
  · exact (touches_declare s.scope keyword).value_eq { s with diagnostics := ds } name name

theorem defineAlias (keyword struct : SymbolId) :
    Passage s (s.defineAlias name keyword struct) := by
  obtain ⟨ds, heq⟩ := defineAlias_eq s name keyword struct
  rw [heq]
  have hreport : Passage s { s with diagnostics := ds } := .report (.refl s) ds
  have hdeclare := hreport.declare keyword hname hscope hnew
  have htied := (hdeclare.trans (.modifyDeclaration _ name (f := ({ · with isAlias := true }))
    fun _ => rfl)).trans
      (.modifyDeclaration _ struct (f := ({ · with alias? := some name })) fun _ => rfl)
  dsimp only
  split
  · exact htied
  · have hsize (s' : State) (id : SymbolId) (f : Symbol → Symbol) :
        (s'.modifySymbol id f).symbols.size = s'.symbols.size := Array.size_modify
    apply htied.bind
    · rw [State.modifyDeclaration, State.modifyDeclaration, State.declare, hsize, hsize, hsize]
      exact hlt
    · rw [State.modifyDeclaration, (touches_declaration _).value_eq, State.modifyDeclaration,
        (touches_declaration _).value_eq]
      exact (touches_declare s.scope keyword).value_eq { s with diagnostics := ds } name name

end Names

/-- What has been done with the token does not make it a brace. -/
theorem pass_token (h : Passage s s') (hs : s.Legible) (htoken : s'.token = s.token)
    (hother : ¬IsBrace s.current.value) : Passage s (s'.advance cStructs) := by
  apply Passage.advance h
  rw [State.current, htoken, h.trace.value hs.token_lt]
  exact hother

/-- The name at the token is declared and passed. -/
theorem define_token (hs : s.Legible) (hnew : s.NewName) (hname : s.current.kind = .name)
    (keyword : SymbolId) : Passage s ((s.define s.token keyword).advance cStructs) := by
  obtain ⟨hscope, hnew⟩ := hnew hname
  exact (Passage.define hname hscope hnew hs.token_lt keyword).pass_token hs (token_define _ _ _)
    (hs.not_brace_of_name hname)

theorem alias_token (hs : s.Legible) (hnew : s.NewName) (hname : s.current.kind = .name)
    (keyword struct : SymbolId) :
    Passage s ((s.defineAlias s.token keyword struct).advance cStructs) := by
  obtain ⟨hscope, hnew⟩ := hnew hname
  exact (Passage.defineAlias hname hscope hnew hs.token_lt keyword struct).pass_token hs
    (token_defineAlias _ _ _ _) (hs.not_brace_of_name hname)

end Passage

/-! ## Expressions -/

/-- Nothing binds, so an expression is one symbol, and an operand is no brace. -/
theorem passage_expression {bound : Nat} {top : SymbolId} (hs : s.Legible)
    (h : expression cStructs fuel bound s = some (top, s')) (hclean : s'.hasErrors = false) :
    Passage s s' := by
  obtain ⟨fuel, s₁, rfl, hnull, hoperators⟩ := expression_cases h
  rcases nullDenotation_cases hnull with ⟨hitself, -⟩ | ⟨hprefixed, -⟩ | ⟨-, rfl⟩
  · obtain ⟨-, rfl⟩ := expression_of_nud hitself (hs.advance.power _) h
    rw [symbol_advance hs.token_lt] at hitself
    apply Passage.pass s (hs.not_brace_of_role _)
    intro hrole
    rw [hrole] at hitself
    cases hitself
  · -- no symbol is a prefix
    exact absurd hprefixed (hs.advance.nud s.token)
  · -- the expression that is missing has been reported
    have heq := operators_eq_of_le hoperators (by
      change ((s.advance cStructs).symbol (s.advance cStructs).token).role.bindingPower ≤ bound
      rw [hs.advance.power]
      exact Nat.zero_le _)
    cases heq
    rw [hasErrors_report _ _ rfl] at hclean
    cases hclean

theorem passage_expressionStatement (hs : s.Legible)
    (h : expressionStatement cStructs s = some s') (hclean : s'.hasErrors = false) :
    Passage s s' := by
  obtain ⟨⟨top, s₁⟩, hread, heq⟩ := Option.map_eq_some_iff.1 h
  dsimp only at heq
  split at heq
  · subst heq
    exact passage_expression hs hread hclean
  · rw [← heq, hasErrors_report _ _ rfl] at hclean
    cases hclean

/-! ## Members -/

theorem checkLength_of_hasErrors (hclean : (s.checkLength id).hasErrors = false) :
    s.checkLength id = s := by
  unfold State.checkLength at hclean ⊢
  split
  · rfl
  · rename_i hliteral
    rw [if_neg hliteral, hasErrors_report _ _ rfl] at hclean
    cases hclean

theorem passage_dimension (hs : s.Legible) (h : dimension cStructs name s = some s')
    (hclean : s'.hasErrors = false) : Passage s s' := by
  obtain ⟨length, s₁, hread, heq⟩ := dimension_cases h
  rw [heq] at hclean ⊢
  have hexpect := (grows_modifySymbol _ name _).hasErrors_eq_false hclean
  have hlength := checkLength_of_hasErrors
    ((grows_expect cStructs "]" _).hasErrors_eq_false hexpect)
  rw [hlength] at hexpect ⊢
  have hclean₁ := (grows_expect cStructs "]" s₁).hasErrors_eq_false hexpect
  have hpass := passage_expression hs hread hclean₁
  have hbracket := hpass.trans (.expect (hpass.legible hs) (by decide) hexpect)
  exact hbracket.trans (.modifyDeclaration _ name fun _ => rfl)

theorem passage_declarator (hs : s.Legible) (hnew : s.NewName)
    (h : declarator cStructs keyword s = some s') (hclean : s'.hasErrors = false) :
    Passage s s' := by
  unfold declarator at h
  split at h
  · rename_i hname
    have hpass := Passage.define_token hs hnew hname keyword
    dsimp only at h
    split at h
    · rename_i hcheck
      have hbracket := hpass.trans (.pass_check (hpass.legible hs) hcheck (by decide))
      exact hbracket.trans (passage_dimension (hbracket.legible hs) h hclean)
    · cases h
      exact hpass
  · -- without a name there is an error, whatever is read next
    cases h
    have hreport := hasErrors_report s s.token
      (show Problem.memberNameMissing.severity = .error from rfl)
    split at hclean
    · rw [hreport] at hclean
      cases hclean
    · exact ((grows_advance cStructs _).absurd hreport hclean).elim

theorem passage_declarators (hs : s.Legible) (hnew : s.NewName)
    (h : declarators cStructs keyword fuel s = some s') (hclean : s'.hasErrors = false) :
    Passage s s' := by
  induction fuel using Nat.strongRecOn generalizing s with
  | ind fuel ih =>
    obtain ⟨s₁, h₁, hcases⟩ := declarators_cases h
    rcases hcases with ⟨-, rfl⟩ | ⟨hcomma, rest, rfl, h₂⟩
    · exact passage_declarator hs hnew h₁ hclean
    · have hgrows := (grows_advance cStructs s₁).trans (grows_declarators h₂)
      have hfirst := passage_declarator hs hnew h₁ (hgrows.hasErrors_eq_false hclean)
      have hpass := hfirst.trans (.pass_check (hfirst.legible hs) hcomma (by decide))
      exact hpass.trans (ih rest (Nat.lt_succ_self rest) (hpass.legible hs)
        (hfirst.legible hs).newName_advance h₂)

theorem passage_members (hs : s.Legible) (hnew : s.NewName)
    (h : members cStructs keyword s = some s') (hclean : s'.hasErrors = false) :
    Passage s s' := by
  unfold members at h
  split at h
  · cases h
    rw [hasErrors_report s keyword rfl] at hclean
    cases hclean
  · obtain ⟨s₁, h₁, rfl⟩ := Option.map_eq_some_iff.1 h
    split at hclean
    · rw [State.reportExpected, hasErrors_report s₁ s₁.token rfl] at hclean
      cases hclean
    · rename_i hopen
      rw [if_neg hopen]
      have hread := passage_declarators hs hnew h₁
        ((grows_expect cStructs ";" s₁).hasErrors_eq_false hclean)
      exact hread.trans (.expect (hread.legible hs) (by decide) hclean)

/-! ## Keywords and tags -/

namespace State

/-- The tag of the struct whose body may start here stands right before the token, and has no body;
if there is no tag, no name stands there. -/
def Headed (s : State) : Option SymbolId → Prop
  | none => (s.symbol (s.token - 1)).kind ≠ .name
  | some tag => tag + 1 = s.token ∧ (s.symbol tag).kind = .name ∧
    (s.symbol tag).declaration?.isSome = true ∧ (s.symbol tag).innerScope? = none

theorem Legible.token_next (h : s.Legible) (he : s.endSymbol? = none) :
    (s.advance cStructs).token = s.token + 1 := by
  rw [token_advance he, h.size]

/-- Behind a closing brace there is something to read. -/
theorem Legible.token_close (h : s.Legible) (hclose : s.current.value = closeBrace) :
    s.closeScope.endSymbol? = none ∧
      (s.closeScope.advance cStructs).token = s.token + 1 := by
  have he : s.closeScope.endSymbol? = none := by
    obtain ⟨c, outer, heq⟩ := closeScope_eq_with s
    rw [heq]
    exact h.not_end (.inr hclose)
  refine ⟨he, ?_⟩
  rw [h.closeScope.token_next he, (symbols_closeScope s).2]

/-- Where the symbol before the token is changed, the token stays new. -/
theorem NewName.modifySymbol (h : s.NewName) (hid : id ≠ s.token) (f : Symbol → Symbol) :
    (s.modifySymbol id f).NewName :=
  h.of_eq rfl rfl (symbol_modifySymbol_of_ne (Ne.symm hid))

theorem NewName.setBody (h : s.NewName) (hid : id ≠ s.token) (body : ScopeId) :
    (s.setBody id body).NewName :=
  h.modifySymbol hid _

theorem NewName.reserve (h : s.NewName) (hid : id ≠ s.token) : (s.reserve id).NewName := by
  apply h.of_eq token_reserve _ (symbol_reserve_of_ne (Ne.symm hid))
  rcases reserve_cases s id with heq | ⟨ds, -, heq⟩
  · rw [heq]
  · rw [heq]
    rfl

end State

theorem passage_enterStatement (hs : s.Legible) (hnew : s.Undeclared s.token)
    (hstd : s.current.role.std ≠ none) : Passage s (s.enterStatement cStructs) := by
  have hpass : Passage s (s.advance cStructs) := by
    apply Passage.pass s (hs.not_brace_of_role _)
    intro hrole
    rw [State.current, hrole] at hstd
    exact hstd rfl
  have hreserve : Passage s ((s.advance cStructs).reserve s.token) :=
    hpass.trans (.reserve _ (Nat.lt_of_lt_of_le hs.token_lt size_le_advance))
  have hundeclared :
      (((s.advance cStructs).reserve s.token).symbol s.token).declaration? = none := by
    rw [declaration?_reserve, symbol_advance hs.token_lt]
    exact hnew
  apply hreserve.edit s.token (edits_kind (by decide) (·.first?) (·.second?)) touches_statement
  refine ⟨fun hname => SymbolKind.noConfusion hname, fun hdeclared => ?_⟩
  rw [hundeclared] at hdeclared
  cases hdeclared

/-- Behind the keyword of a statement there may be a name, which is new. -/
theorem newName_enterStatement (hs : s.Legible) (he : s.endSymbol? = none) :
    (s.enterStatement cStructs).NewName ∧ (s.enterStatement cStructs).token = s.token + 1 ∧
      ((s.enterStatement cStructs).symbol s.token).kind = .statement := by
  have hne : s.token ≠ (s.advance cStructs).token := by
    rw [hs.token_next he]
    exact Nat.ne_of_lt (Nat.lt_succ_self s.token)
  refine ⟨?_, ?_, ?_⟩
  · apply (hs.newName_advance.reserve hne).modifySymbol
    rw [token_reserve]
    exact hne
  · change ((s.advance cStructs).reserve s.token).token = s.token + 1
    rw [token_reserve, hs.token_next he]
  · have hlt : s.token < ((s.advance cStructs).reserve s.token).symbols.size := by
      rw [size_reserve]
      exact Nat.lt_of_lt_of_le hs.token_lt size_le_advance
    rw [State.enterStatement, symbol_modifySymbol_self hlt]

theorem symbol_define (hlt : name < s.symbols.size) (keyword : SymbolId) :
    (s.define name keyword).symbol name =
      s.declaredAs (s.symbol name) { declaredType := keyword } := by
  obtain ⟨ds, heq⟩ := define_eq s name keyword
  rw [heq]
  exact symbol_declare hlt

/-- The tag of a struct is declared behind it. -/
theorem passage_tag (hs : s.Legible) (hnew : s.NewName) (hname : s.current.kind = .name)
    (keyword : SymbolId) :
    Passage s ((s.advance cStructs).define s.token keyword) ∧
      ((s.advance cStructs).define s.token keyword).Headed (some s.token) := by
  obtain ⟨hscope, hnew⟩ := hnew hname
  have hlt := Nat.lt_of_lt_of_le hs.token_lt (size_le_advance (t := cStructs))
  constructor
  · apply (Passage.pass_name hs hname).trans
    apply Passage.define
    · rw [symbol_advance hs.token_lt]
      exact hname
    · rw [symbol_advance hs.token_lt, scope_advance.1]
      exact hscope
    · rw [State.Undeclared, symbol_advance hs.token_lt]
      exact hnew
    · exact hlt
  · refine ⟨?_, ?_, ?_, ?_⟩
    · rw [token_define, hs.token_next (hs.not_end_of_name hname)]
    · rw [symbol_define hlt]
      rfl
    · rw [symbol_define hlt]
      rfl
    · rw [symbol_define hlt]
      rfl

/-! ## Structs -/

section Bodies

variable {s₂ : State} (hs : s₁.Legible) (hopen : s₁.current.value = openBrace)
  (hbody : Passage (s₁.advance cStructs).openScope s₂)

include hs hbody in
/-- What becomes of the head of a struct in its body. -/
theorem becomes_head {s₃ : State} (hname : Passage (s₂.closeScope.advance cStructs) s₃)
    {d : SymbolId} (hd : d < s₁.symbols.size) :
    Becomes (d + 1 < (s₁.advance cStructs).token) (s₁.symbol d) (s₃.symbol d) := by
  have hs₂ := hbody.legible hs.advance.openScope
  apply Becomes.through hs hbody hd
  · exact hbody.becomes hs.advance.openScope (Nat.lt_of_lt_of_le hd size_le_advance)
  · exact hname.becomes hs₂.closeScope.advance
      (Nat.lt_of_lt_of_le (hbody.lt_size_of_body hd) size_le_advance)

include hs hopen hbody

/-- The body of a struct with a tag. -/
theorem passage_tagged {tag : SymbolId} (hhead : s₁.Headed (some tag))
    (hclose : s₂.current.value = closeBrace) : Passage s₁
      ((s₂.closeScope.advance cStructs).setBody tag (s₁.advance cStructs).openScope.scope) := by
  obtain ⟨htoken, hkind, hdeclared, hnone⟩ := hhead
  obtain ⟨-, htoken₃⟩ := (hbody.legible hs.advance.openScope).token_close hclose
  have hlt : tag < s₁.symbols.size := by
    rw [hs.size, ← htoken]
    exact Nat.lt_succ_of_lt (Nat.lt_succ_self tag)
  have hbecomes := becomes_head hs hbody (.refl _) hlt
  have hearly : tag + 1 < (s₁.advance cStructs).token := by
    rw [hs.token_next (hs.not_end (.inl hopen)), htoken]
    exact Nat.lt_succ_self s₁.token
  obtain ⟨hdeclared₃, hkind₃⟩ := hbecomes.declared hdeclared
  apply Passage.block (.refl s₁) hopen hbody hclose (.refl _) htoken₃ _ hdeclared₃
  · rw [hbecomes.early hearly hdeclared, hnone]
  · have hbefore : s₁.token - 1 = tag := by rw [← htoken, Nat.add_sub_cancel]
    rw [NamesBody, hbefore, if_pos (hkind₃.trans hkind), htoken]

/-- The body of a struct that goes by the name behind it. -/
theorem passage_untagged (hhead : s₁.Headed none) (hclose : s₂.current.value = closeBrace)
    (hname : (s₂.closeScope.advance cStructs).current.kind = .name) (keyword : SymbolId) :
    Passage s₁ ((((s₂.closeScope.advance cStructs).define
      (s₂.closeScope.advance cStructs).token keyword).setBody
        (s₂.closeScope.advance cStructs).token
          (s₁.advance cStructs).openScope.scope).advance cStructs) := by
  have hs₂ := hbody.legible hs.advance.openScope
  have hs₃ := hs₂.closeScope.advance
  obtain ⟨hscope, hnew⟩ := hs₂.closeScope.newName_advance hname
  have hdefine := Passage.define hname hscope hnew hs₃.token_lt keyword
  obtain ⟨-, htoken⟩ := hs₂.token_close hclose
  -- what stands before the body is no name in the end either
  have hkeyword := becomes_head hs hbody hdefine (d := s₁.token - 1)
    (Nat.lt_of_le_of_lt (Nat.sub_le _ _) hs.token_lt)
  have hblock : Passage s₁ (((s₂.closeScope.advance cStructs).define
      (s₂.closeScope.advance cStructs).token keyword).setBody
        (s₂.closeScope.advance cStructs).token (s₁.advance cStructs).openScope.scope) := by
    apply Passage.block (.refl s₁) hopen hbody hclose hdefine ((token_define _ _ _).trans htoken)
    · rw [NamesBody, if_neg fun hkind => hhead (hkeyword.name hkind), htoken]
    · rw [symbol_define hs₃.token_lt]
      rfl
    · rw [symbol_define hs₃.token_lt]
      rfl
  apply hblock.advance
  have htrace : Trace cStructs (s₂.closeScope.advance cStructs)
      (((s₂.closeScope.advance cStructs).define (s₂.closeScope.advance cStructs).token
        keyword).setBody (s₂.closeScope.advance cStructs).token
          (s₁.advance cStructs).openScope.scope) := hdefine.trace.trans (.setBody _ _ _)
  change ¬IsBrace (State.symbol _ ((s₂.closeScope.advance cStructs).define
    (s₂.closeScope.advance cStructs).token keyword).token).value
  rw [token_define, htrace.value hs₃.token_lt]
  exact hs₃.not_brace_of_name hname

/-- The body of a struct, up to the semicolon. -/
theorem passage_endName (hhead : s₁.Headed tag?)
    (hnamed : (typedefName cStructs keyword tag? (s₁.advance cStructs).openScope.scope
      (s₂.leaveBody cStructs tag? (s₁.advance cStructs).openScope.scope)).1.isNone = false)
    (hclean : (s₂.closeScope.expect cStructs closeBrace).hasErrors = false) :
    Passage s₁ (s₂.endName cStructs keyword tag? (s₁.advance cStructs).openScope.scope) := by
  have hs₂ := hbody.legible hs.advance.openScope
  have hcheck := check_of_hasErrors hclean
  have hclose : s₂.current.value = closeBrace := by
    have hvalue := hs₂.closeScope.value_of_check (.inr rfl) hcheck
    rw [State.current, symbol_closeScope, (symbols_closeScope s₂).2] at hvalue
    exact hvalue
  have hs₃ := hs₂.closeScope.advance
  have hnew := hs₂.closeScope.newName_advance
  unfold State.endName
  unfold State.leaveBody at hnamed ⊢
  rw [expect_of_check hcheck] at hnamed ⊢
  cases tag? with
  | none =>
    dsimp only [Option.elim_none] at hnamed ⊢
    unfold typedefName at hnamed ⊢
    split at hnamed
    · rename_i hname
      rw [if_pos hname]
      exact passage_untagged hs hopen hbody hhead hclose hname keyword
    · cases hnamed
  | some tag =>
    have hpass := passage_tagged hs hopen hbody hhead hclose
    -- the tag was read before the body, so it is not the name behind it
    have hlt : tag < (s₂.closeScope.advance cStructs).token := by
      have hstart : s₁.token ≤ (s₁.advance cStructs).token :=
        (Trace.advance s₁).token_le hs.toLatest
      have hend : (s₁.advance cStructs).token ≤ s₂.token := hbody.token_le hs.advance.openScope
      rw [(hs₂.token_close hclose).2]
      exact Nat.lt_succ_of_lt (Nat.lt_of_lt_of_le (Nat.lt_of_succ_le (Nat.le_of_eq hhead.1))
        (Nat.le_trans hstart hend))
    change Passage s₁ (typedefName cStructs keyword (some tag) _
      ((s₂.closeScope.advance cStructs).setBody tag (s₁.advance cStructs).openScope.scope)).2
    unfold typedefName
    split
    · rename_i hname
      exact hpass.trans (.alias_token (hpass.legible hs) (hnew.setBody (Nat.ne_of_lt hlt) _) hname
        keyword tag)
    · exact hpass

theorem passage_structEnd (hhead : s₁.Headed tag?)
    (hclean : (structEnd cStructs keyword tag? (s₁.advance cStructs).openScope.scope
      s₂).2.hasErrors = false) :
    Passage s₁ (structEnd cStructs keyword tag? (s₁.advance cStructs).openScope.scope s₂).2 := by
  rw [snd_structEnd] at hclean ⊢
  cases hnamed : (typedefName cStructs keyword tag? (s₁.advance cStructs).openScope.scope
      (s₂.leaveBody cStructs tag? (s₁.advance cStructs).openScope.scope)).1.isNone with
  | true =>
    -- a struct without a name is an error
    rw [hnamed, if_pos rfl] at hclean
    exact ((grows_expect cStructs ";" _).absurd (hasErrors_report _ _ rfl) hclean).elim
  | false =>
    rw [hnamed, if_neg Bool.false_ne_true] at hclean
    rw [if_neg Bool.false_ne_true]
    have hclean₂ := (grows_expect cStructs ";" _).hasErrors_eq_false hclean
    have hgrows : (s₂.closeScope.expect cStructs closeBrace).Grows
        (s₂.endName cStructs keyword tag? (s₁.advance cStructs).openScope.scope) := by
      apply Grows.trans _ (grows_typedefName cStructs _ keyword tag? _)
      unfold State.leaveBody
      cases tag? with
      | none => exact .refl _
      | some tag => exact grows_setBody _ tag _
    have hpass := passage_endName hs hopen hbody hhead hnamed (hgrows.hasErrors_eq_false hclean₂)
    exact hpass.trans (.expect (hpass.legible hs) (by decide) hclean)

end Bodies

def ClearsBodies (readBody : State → Option State) : Prop :=
  ∀ inside s₂ : State, inside.Legible → inside.Regular → readBody inside = some s₂ →
    s₂.hasErrors = false → Passage inside s₂

/-- The body of a struct whose head has been read, and what follows it. -/
theorem passage_body {s₂ : State} (hbody : ClearsBodies (bodyReader cStructs fuel))
    (hs : s₁.Legible) (hhead : s₁.Headed tag?)
    (hregular : (s₁.expect cStructs openBrace).openScope.Regular)
    (hread : bodyReader cStructs fuel (s₁.expect cStructs openBrace).openScope = some s₂)
    (hclean : (structEnd cStructs keyword tag?
      (s₁.expect cStructs openBrace).openScope.scope s₂).2.hasErrors = false) :
    Passage s₁ (structEnd cStructs keyword tag?
      (s₁.expect cStructs openBrace).openScope.scope s₂).2 := by
  have hclean₂ := (grows_structEnd cStructs s₂ keyword tag? _).hasErrors_eq_false hclean
  have hclean₁ : (s₁.expect cStructs openBrace).hasErrors = false :=
    (grows_bodyReader hread).hasErrors_eq_false hclean₂
  have hcheck := check_of_hasErrors hclean₁
  rw [expect_of_check hcheck] at hread hclean hregular ⊢
  have hinside := hbody _ _ hs.advance.openScope hregular hread hclean₂
  exact passage_structEnd hs (hs.value_of_check (.inl rfl) hcheck) hinside hhead hclean

/-! ## Statements -/

section Statements

variable {name? : Option SymbolId} (hs : s.Legible) (hregular : s.Regular)
  (he : s.endSymbol? = none)
include hs hregular he

/-- A struct, up to its body. -/
theorem passage_head (hstd : s.current.role.std = some .struct) :
    Passage s ((s.enterStatement cStructs).tag?.elim (s.passHead cStructs)
        fun tag => (s.passHead cStructs).define tag s.token) ∧
      ((s.enterStatement cStructs).tag?.elim (s.passHead cStructs)
        fun tag => (s.passHead cStructs).define tag s.token).Headed
          (s.enterStatement cStructs).tag? := by
  have henter := passage_enterStatement hs hregular.steady.undeclared (by rw [hstd]; nofun)
  obtain ⟨hnew, htoken, hkind⟩ := newName_enterStatement hs he
  unfold State.passHead State.passTag State.tag?
  by_cases hname : (s.enterStatement cStructs).current.kind = .name
  · rw [if_pos hname, Option.isSome_some, if_pos rfl, Option.elim_some]
    obtain ⟨htag, hhead⟩ := passage_tag (henter.legible hs) hnew hname s.token
    exact ⟨henter.trans htag, hhead⟩
  · rw [if_neg hname, Option.isSome_none, if_neg Bool.false_ne_true, Option.elim_none]
    refine ⟨henter, ?_⟩
    rw [Headed, htoken, Nat.add_sub_cancel, hkind]
    nofun

theorem passage_forward (hstd : s.current.role.std = some .struct)
    (hcheck : (s.passHead cStructs).check ";" = true)
    (hclean : (forwardDeclaration s.token (s.enterStatement cStructs).tag?
      ((s.passHead cStructs).advance cStructs)).2.hasErrors = false) :
    Passage s (forwardDeclaration s.token (s.enterStatement cStructs).tag?
      ((s.passHead cStructs).advance cStructs)).2 := by
  have henter := passage_enterStatement hs hregular.steady.undeclared (by rw [hstd]; nofun)
  have hs₁ := henter.legible hs
  obtain ⟨hnew, -, -⟩ := newName_enterStatement hs he
  unfold State.passHead State.passTag State.tag? at hcheck hclean ⊢
  by_cases hname : (s.enterStatement cStructs).current.kind = .name
  · rw [if_pos hname, Option.isSome_some, if_pos rfl] at hcheck hclean ⊢
    have htag : Passage s ((s.enterStatement cStructs).advance cStructs) :=
      henter.trans (.pass_name hs₁ hname)
    have hpass := htag.trans (.pass_check (htag.legible hs) hcheck (by decide))
    apply hpass.trans
    unfold forwardDeclaration
    dsimp only
    split
    · exact .refl _
    · -- the tag was read two symbols ago
      obtain ⟨hscope, hnew⟩ := hnew hname
      have hlt := Nat.lt_of_lt_of_le hs₁.token_lt (size_le_advance (t := cStructs))
      have hsymbol : (((s.enterStatement cStructs).advance cStructs).advance cStructs).symbol
          (s.enterStatement cStructs).token = (s.enterStatement cStructs).current := by
        rw [symbol_advance hlt, symbol_advance hs₁.token_lt]
        rfl
      apply Passage.define
      · rw [hsymbol]
        exact hname
      · rw [hsymbol, scope_advance.1, scope_advance.1]
        exact hscope
      · rw [State.Undeclared, hsymbol]
        exact hnew
      · exact Nat.lt_of_lt_of_le hlt size_le_advance
  · rw [if_neg hname] at hclean
    rw [forwardDeclaration, hasErrors_report _ _ rfl] at hclean
    cases hclean

theorem passage_statement (hbody : ClearsBodies (bodyReader cStructs fuel))
    (h : statement cStructs (bodyReader cStructs fuel) s = some (name?, s'))
    (hclean : s'.hasErrors = false) : Passage s s' := by
  -- what the token does at the start of a statement tells the three kinds apart
  cases hstd : s.current.role.std with
  | none =>
    unfold statement at h
    rw [hstd] at h
    obtain ⟨s₁, h₁, h₂⟩ := Option.map_eq_some_iff.1 h
    cases h₂
    exact passage_expressionStatement hs h₁ hclean
  | some std =>
    have henter := passage_enterStatement hs hregular.steady.undeclared (by rw [hstd]; nofun)
    obtain ⟨hnew, -, -⟩ := newName_enterStatement hs he
    cases std with
    | member =>
      unfold statement at h
      rw [hstd] at h
      obtain ⟨s₁, h₁, h₂⟩ := Option.map_eq_some_iff.1 h
      cases h₂
      exact henter.trans (passage_members (henter.legible hs) hnew h₁ hclean)
    | struct =>
      rcases statement_struct_cases hstd h with ⟨hforward, heq⟩ | ⟨s₂, -, h₂, heq⟩
      · rw [heq] at hclean ⊢
        have hcheck : (s.passHead cStructs).check ";" = true := by
          unfold State.body? at hforward
          by_contra hcheck
          rw [if_neg hcheck] at hforward
          cases hforward
        exact passage_forward hs hregular he hstd hcheck hclean
      · rw [heq] at hclean ⊢
        obtain ⟨hpass, hhead⟩ := passage_head hs hregular he hstd
        have hregular' := hregular.passOpenBrace (t := cStructs) he hstd
        unfold State.passOpenBrace at hregular' h₂ hclean ⊢
        have hbody := passage_body hbody (hpass.legible hs) hhead hregular'.openScope h₂ hclean
        exact hpass.trans hbody

end Statements

theorem passage_statements (hs : s.Legible) (hregular : s.Regular) {names : List SymbolId}
    (h : statements cStructs fuel s = some (names, s')) (hclean : s'.hasErrors = false) :
    Passage s s' := by
  induction fuel using Nat.strongRecOn generalizing s s' names with
  | ind fuel ih =>
    rcases statements_cases h with ⟨-, -, rfl⟩ | ⟨hopen, rest, name?, s₁, others, rfl, -, h₁, h₂⟩
    · exact .refl _
    · have he := hregular.steady.not_end_of_statements hopen h
      have hlt := Nat.lt_succ_self rest
      -- a body is read with less fuel, as are the statements behind it
      have hpass : Passage s s₁ := by
        apply passage_statement hs hregular he _ h₁
          ((grows_statements h₂).hasErrors_eq_false hclean)
        intro inside s₂ hs hregular h hclean
        obtain ⟨names, h⟩ := bodyReader_cases h
        exact ih rest hlt hs hregular h hclean
      exact hpass.trans (ih rest hlt (hpass.legible hs) (hregular.statement he h₁) h₂ hclean)

/-! ## Sources -/

/-- A source that is read without errors is passed. -/
theorem passage_program (hs : s.Legible) (hregular : s.Regular) {names : List SymbolId}
    (h : program cStructs fuel s = some (names, s')) (hclean : s'.hasErrors = false) :
    Passage s s' := by
  obtain ⟨first, s₁, h₁, hcases⟩ := program_cases h
  rcases hcases with ⟨-, -, rfl⟩ | ⟨-, rest, others, rfl, -, h₂⟩
  · exact passage_statements hs hregular h₁ hclean
  · -- a closing brace that nothing opens is an error
    have hgrows := (grows_advance cStructs _).trans (grows_program h₂)
    exact (hgrows.absurd (hasErrors_report s₁ s₁.token rfl) hclean).elim

theorem legible_ofSource (source : String) : (State.ofSource source).Legible where
  toLatest := latest_advance cStructs rfl
  toSimple := simple_ofSource source
  toKeyed := (keyed_ofLexemes _ _).advance
  brace := by
    apply Bracketed.advance _ _ (keyed_ofLexemes _ _)
    · intro id hbrace
      have hdefault : ¬(IsBrace (default : Symbol).id ∨ IsBrace (default : Symbol).value) := by
        decide
      exact absurd hbrace hdefault
    · exact simple_ofLexemes source
  ended := endKnown_advance rfl

end CStruct.Parse
