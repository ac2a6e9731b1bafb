import CStruct.Proofs.Declared.Structs

/-!
# What statements declare

Each statement brings what it declares, and so do the statements of a body and those of a whole
source. This holds for every table: where reading comes to an end, no statement has gone beyond what
it may change. The main statement is `brings_program`.
-/

namespace CStruct.Parse

open SymbolTable State

variable {t : SymbolTable} {s s' s₁ s₂ : State} {keyword tag : SymbolId} {body : ScopeId}
  {std : StatementDenotation} {P : SymbolId → Prop} {names : List SymbolId} {fuel : Nat}

/-! ## Structs -/

namespace State

/-- The symbol is a name right behind the keyword. It has been passed, and nothing stands for it. -/
structure IsTag (s : State) (keyword tag : SymbolId) : Prop extends s.Passed tag where
  eq : tag = keyword + 1
  kind : (s.symbol tag).kind = .name
  new : ∀ k name, (s.scopeAt k).get? name ≠ some tag

theorem IsTag.of_idle (h : s.IsTag keyword tag) (hs : s.Steady) (hidle : Idle s.token s s') :
    s'.IsTag keyword tag where
  toPassed := hidle.passed h.toPassed hs
  eq := h.eq
  kind := by
    rw [hidle.symbol_of_lt hs.bounds h.lt]
    exact h.kind
  new := fun k name hk => by
    rcases hidle.entry k name tag hk with hold | ⟨hle, -⟩
    · exact h.new k name hold
    · exact Nat.not_lt_of_le hle h.lt

/-- A name behind the keyword is passed. -/
theorem isTag_advance (hs : s.Steady) (hname : s.current.kind = .name)
    (htoken : s.token = keyword + 1) (t : SymbolTable) :
    (s.advance t).IsTag keyword s.token ∧ (s.advance t).token = s.token + 1 := by
  have he := hs.not_end hname
  refine ⟨⟨hs.passed he t, htoken, ?_, fun k name hk => ?_⟩, ?_⟩
  · rw [symbol_advance hs.token_lt]
    exact hname
  · rw [scopeAt, scopes_advance] at hk
    exact hs.ne_token k name hk
  · rw [token_advance he, hs.size]

end State

/-- The tag of a struct is declared before anything else of the struct. -/
theorem brings_tag (h : Brings P [] s s') (hkeyword : s'.IsKeyword s.token .struct)
    (htag : s'.IsTag s.token tag) :
    Brings (fun e => e = tag ∨ P e) [tag] s (s'.define tag s.token) ∧
      (s'.define tag s.token).IsDeclared tag s.scope .struct { declaredType := s.token } := by
  have hlt : s.token < tag := by
    rw [htag.eq]
    exact Nat.lt_succ_self _
  have hdeclared := isDeclared_define (Nat.lt_trans htag.lt h.steady.token_lt) hlt hkeyword
  rw [h.scope] at hdeclared
  exact ⟨h.define (Nat.le_of_lt hlt) htag.lt htag.kind htag.undeclared htag.new hkeyword hlt,
    hdeclared⟩

theorem brings_forwardDeclaration (hs : s.Steady) (h : Brings P [] s s')
    (hkeyword : s'.IsKeyword s.token .struct) (tag? : Option SymbolId)
    (htag : ∀ tag ∈ tag?, s'.IsTag s.token tag ∧ (s'.symbol (tag + 1)).id = ";") :
    Brings P (forwardDeclaration s.token tag? s').1.toList s
      (forwardDeclaration s.token tag? s').2 := by
  unfold forwardDeclaration
  split
  · exact h.report hs _ _
  · rename_i tag
    obtain ⟨htag, hend⟩ := htag tag rfl
    split
    · exact h
    · obtain ⟨hdefine, hdeclared⟩ := brings_tag h hkeyword htag
      refine hdefine.settle (.forward hdeclared htag.eq ?_)
      rw [(alters_define s' tag s.token).symbol _ (Nat.succ_ne_self tag)]
      exact hend

/-- The struct that has been declared under its tag has its body behind the closing brace. -/
theorem brings_setBody (h : Brings (fun e => e = tag ∨ P e) [tag] s s')
    (hlt : s.token ≤ tag)
    (hdeclared : s'.IsDeclared tag s.scope .struct { declaredType := keyword })
    (htag : tag = keyword + 1) (hnext : (s'.symbol (tag + 1)).id ≠ ";")
    (hbody : s'.Unclaimed body s.scope) :
    Brings P [tag] s (s'.setBody tag body) ∧
      (s'.setBody tag body).IsDeclared tag s.scope .struct
        { declaredType := keyword, innerScope? := some body } ∧
      ((s'.setBody tag body).symbol (tag + 1)).id ≠ ";" := by
  have hchanged : (s'.setBody tag body).IsDeclared tag s.scope .struct
      { declaredType := keyword, innerScope? := some body } :=
    hdeclared.modifyDeclaration ({ · with innerScope? := some body }) rfl
  have hnext : ((s'.setBody tag body).symbol (tag + 1)).id ≠ ";" := by
    rw [State.setBody, (alters_modifyDeclaration s' tag _).symbol _ (Nat.succ_ne_self tag)]
    exact hnext
  have hmade : (s'.setBody tag body).Made tag :=
    .tagged hchanged htag hnext fun b hb => absurd hb (Option.not_mem_none b)
  have hconsistent := h.consistent.setBody (hdeclared.bare rfl rfl) hbody.pos hbody.lt
    (hbody.parent?.trans hdeclared.scope?.symm) hbody.closed hbody.unowned
  have hset := h.modifyDeclaration hdeclared rfl rfl hlt
    (h.steady.lt_of_declared hdeclared.declared) hconsistent
  exact ⟨(hset.settle hmade).settle hmade, hchanged, hnext⟩

/-- A struct with a tag goes by its tag. -/
theorem brings_tagged (hs : s.Steady) (h : Brings P [] s s₁)
    (hkeyword : s₁.IsKeyword s.token .struct) (htag : s₁.IsTag s.token tag)
    (hnext : (s₁.symbol (tag + 1)).id ≠ ";")
    (hread : Brings (fun e => e = tag ∨ P e) names
      ((s₁.define tag s.token).expect t openBrace).openScope s₂)
    (hbody : ((s₁.define tag s.token).expect t openBrace).openScope.scope = body) :
    Brings P (structEnd t s.token (some tag) body s₂).1.toList s
      (structEnd t s.token (some tag) body s₂).2 := by
  obtain ⟨hdefine, hdeclared⟩ := brings_tag h hkeyword htag
  have hle := Nat.le_of_lt hdeclared.lt
  obtain ⟨hinside, hfree, -⟩ := brings_body hdefine.steady hdefine.consistent hread
  rw [scope_openScope] at hbody
  rw [hbody, hdefine.scope] at hfree
  -- neither declaring the tag nor reading the body makes a semicolon of what stands behind the tag
  have hnext₃ : ((s₂.closeScope.expect t closeBrace).symbol (tag + 1)).id ≠ ";" := by
    rw [hinside.id, (alters_define s₁ tag s.token).symbol _ (Nat.succ_ne_self tag)]
    · exact hnext
    · rw [hdefine.steady.size]
      exact Nat.succ_lt_succ (hdefine.steady.lt_of_declared hdeclared.declared)
  obtain ⟨hset, hdeclared₄, hnext₄⟩ := brings_setBody (hdefine.trans hs hinside) hle
    (hinside.isDeclared hdefine.steady.bounds hdeclared) htag.eq hnext₃ hfree
  unfold structEnd typedefName
  simp only [Option.elim_some]
  by_cases hname : ((s₂.closeScope.expect t closeBrace).setBody tag body).current.kind = .name <;>
    simp only [hname, ↓reduceIte, Option.isNone_some, Bool.false_eq_true, Option.toList_some]
  · exact (brings_alias hname hle hdeclared₄ htag.eq hnext₄ hs hset).expect hs t ";"
  · exact hset.expect hs t ";"

/-- A struct without a tag goes by the name behind its body, if there is one. -/
theorem brings_untagged (hs : s.Steady) (h : Brings P [] s s₁)
    (hkeyword : s₁.IsKeyword s.token .struct) (htoken : s₁.token = s.token + 1)
    (hread : Brings P names (s₁.expect t openBrace).openScope s₂)
    (hbody : (s₁.expect t openBrace).openScope.scope = body) :
    Brings P (structEnd t s.token none body s₂).1.toList s
      (structEnd t s.token none body s₂).2 := by
  obtain ⟨hinside, hfree, hlater⟩ := brings_body h.steady h.consistent hread
  have hclose := h.trans hs hinside
  rw [scope_openScope] at hbody
  rw [hbody, ← hinside.scope] at hfree
  unfold structEnd typedefName
  simp only [Option.elim_none]
  by_cases hname : (s₂.closeScope.expect t closeBrace).current.kind = .name <;>
    simp only [hname, ↓reduceIte, Option.isNone_some, Option.isNone_none, Bool.false_eq_true,
      Option.toList_some, Option.toList_none]
  · have hlt : s.token + 1 < (s₂.closeScope.expect t closeBrace).token := by
      -- the name is not the end, so that the source has not ended before the body either
      rw [← htoken]
      exact hlater (hinside.endSymbol? (hinside.steady.not_end hname))
    have hname := brings_typedef (t := t) hinside.steady hinside.consistent hname
      (hinside.isKeyword h.steady.bounds hkeyword) hlt hfree
    exact (hclose.trans hs hname).expect hs t ";"
  · exact (hclose.report hs _ _).expect hs t ";"

/-- Whatever stands in the body of a struct, reading it brings some names. -/
def BringsBody (readBody : State → Option State) : Prop :=
  ∀ Q s s', s.Steady → s.Consistent Q → readBody s = some s' → ∃ names, Brings Q names s s'

/-- All that may stand behind the keyword of a struct: the tag or the body, and a semicolon at once
or a body behind the tag. -/
theorem brings_structDeclaration (hs : s.Steady) (h : Brings P [] s s₁)
    (hkeyword : s₁.IsKeyword s.token .struct) (htoken : s₁.token = s.token + 1)
    {readBody : State → Option State} (hbody : BringsBody readBody)
    {name? : Option SymbolId}
    (hread : structDeclaration t readBody s.token s₁ = some (name?, s')) :
    Brings P name?.toList s s' := by
  unfold structDeclaration at hread
  by_cases hname : s₁.current.kind = .name
  · simp only [hname, ↓reduceIte, Option.isSome_some, Option.elim_some] at hread
    obtain ⟨htag, hnext⟩ := isTag_advance h.steady hname htoken t
    have hpassed := h.advance hs t
    have hkeyword₂ := (Idle.advance s₁.token h.steady t).isKeyword h.steady.bounds hkeyword
    split at hread
    · -- a tag and a semicolon
      rename_i hcheck
      have hsemicolon := Idle.advance (s₁.advance t).token hpassed.steady t
      have hend : (((s₁.advance t).advance t).symbol (s₁.token + 1)).id = ";" := by
        rw [← hnext, hsemicolon.id _ hpassed.steady.token_lt]
        exact beq_iff_eq.1 hcheck
      have hforward := brings_forwardDeclaration hs (hpassed.idle hs hsemicolon)
        (hsemicolon.isKeyword hpassed.steady.bounds hkeyword₂) (some s₁.token) (by
          rintro tag ⟨⟩
          exact ⟨htag.of_idle hpassed.steady hsemicolon, hend⟩)
      rw [Option.some.inj hread] at hforward
      exact hforward
    · -- a tag and a body
      rename_i hcheck
      obtain ⟨s₂, h₂, h₃⟩ := Option.map_eq_some_iff.1 hread
      have hother : ((s₁.advance t).symbol (s₁.token + 1)).id ≠ ";" := by
        rw [← hnext]
        exact fun heq => hcheck (beq_iff_eq.2 heq)
      -- while the body is read, the tag has been declared and has no body yet
      obtain ⟨hdefine, -⟩ := brings_tag hpassed hkeyword₂ htag
      have hopen := Idle.expect ((s₁.advance t).define s₁.token s.token).token hdefine.steady t
        openBrace
      obtain ⟨inside, hinside⟩ := hbody _ _ s₂ hopen.steady.openScope
        (hdefine.consistent.of_idle hdefine.steady hopen).openScope h₂
      have hstruct := brings_tagged hs hpassed hkeyword₂ htag hother hinside rfl
      rw [h₃] at hstruct
      exact hstruct
  · simp only [hname, ↓reduceIte, Option.isSome_none, Option.elim_none, Bool.false_eq_true] at hread
    split at hread
    · -- a semicolon alone declares nothing
      have hsemicolon := Idle.advance s₁.token h.steady t
      have hforward := brings_forwardDeclaration hs (h.idle hs hsemicolon)
        (hsemicolon.isKeyword h.steady.bounds hkeyword) none nofun
      rw [Option.some.inj hread] at hforward
      exact hforward
    · obtain ⟨s₂, h₂, h₃⟩ := Option.map_eq_some_iff.1 hread
      have hopen := Idle.expect s₁.token h.steady t openBrace
      obtain ⟨inside, hinside⟩ := hbody _ _ s₂ hopen.steady.openScope
        (h.consistent.of_idle h.steady hopen).openScope h₂
      have hstruct := brings_untagged hs h hkeyword htoken hinside rfl
      rw [h₃] at hstruct
      exact hstruct

/-! ## Statements -/

/-- The keyword of a statement is reserved and marked. -/
theorem idle_enterStatement (hs : s.Steady) (he : s.endSymbol? = none)
    (hstd : s.current.role.std = some std) :
    Idle s.token s (s.enterStatement t) ∧ (s.enterStatement t).IsKeyword s.token std ∧
      (s.enterStatement t).token = s.token + 1 := by
  have hadvance := Idle.advance s.token hs t
  have hpassed := hs.passed he t
  have hreserve := hadvance.trans (.reserve hadvance.steady (Nat.le_refl _) hpassed) (Nat.le_refl _)
  have htoken : ((s.advance t).reserve s.token).token = s.token + 1 := by
    rw [token_reserve, token_advance he, hs.size]
  have hlt : s.token < ((s.advance t).reserve s.token).token := by
    rw [htoken]
    exact Nat.lt_succ_self _
  refine ⟨hreserve.trans (.touch hreserve.steady (Nat.le_refl _) hlt fun _ => ⟨rfl, id⟩)
    (Nat.le_refl _), ⟨?_, ?_⟩, htoken⟩
  · rw [State.enterStatement, symbol_modifySymbol_self (Nat.lt_trans hlt hreserve.steady.token_lt)]
  · rw [State.enterStatement, symbol_modifySymbol_self (Nat.lt_trans hlt hreserve.steady.token_lt)]
    show (((s.advance t).reserve s.token).symbol s.token).role.std = some std
    rw [(hreserve.handled s.token hs.token_lt).retouched.role]
    exact hstd

theorem brings_expressionStatement (hs : s.Steady) (hc : s.Consistent P)
    (h : expressionStatement t s = some s') : Brings P [] s s' := by
  obtain ⟨⟨top, s₁⟩, h₁, rfl⟩ := Option.map_eq_some_iff.1 h
  have hread := Brings.of_idle hs hc (idle_expression hs h₁)
  dsimp only
  split
  · exact hread
  · exact hread.report hs _ _

theorem brings_statement (hs : s.Steady) (hc : s.Consistent P) (he : s.endSymbol? = none)
    {readBody : State → Option State} (hbody : BringsBody readBody)
    {name? : Option SymbolId} (h : statement t readBody s = some (name?, s')) :
    Brings P name?.toList s s' := by
  unfold statement at h
  split at h
  · rename_i hstd
    obtain ⟨hidle, hkeyword, htoken⟩ := idle_enterStatement (t := t) hs he hstd
    exact brings_structDeclaration hs (.of_idle hs hc hidle) hkeyword htoken hbody h
  · rename_i hstd
    obtain ⟨hidle, hkeyword, -⟩ := idle_enterStatement (t := t) hs he hstd
    obtain ⟨s₁, h₁, h₂⟩ := Option.map_eq_some_iff.1 h
    cases h₂
    have hstart := Brings.of_idle hs hc hidle
    exact hstart.trans hs (brings_members hstart.steady hstart.consistent hkeyword h₁)
  · obtain ⟨s₁, h₁, h₂⟩ := Option.map_eq_some_iff.1 h
    cases h₂
    exact brings_expressionStatement hs hc h₁

theorem brings_statements (hs : s.Steady) (hc : s.Consistent P)
    (h : statements t fuel s = some (names, s')) : Brings P names s s' := by
  -- on the fuel, which a statement spends on its body and on the statements behind it
  induction fuel using Nat.strongRecOn generalizing P s s' names with
  | ind fuel ih =>
    rcases statements_cases h with
      ⟨-, rfl, rfl⟩ | ⟨hopen, rest, name?, s₁, others, rfl, rfl, h₁, h₂⟩
    · exact .refl hs hc
    · have hlt := Nat.lt_succ_self rest
      have hbody : BringsBody (bodyReader t rest) := by
        intro Q s s' hs hc h
        obtain ⟨names, h⟩ := bodyReader_cases h
        exact ⟨names, ih rest hlt hs hc h⟩
      have he := hs.not_end_of_statements hopen h
      have hfirst := brings_statement hs hc he hbody h₁
      exact hfirst.trans hs (ih rest hlt hfirst.steady hfirst.consistent h₂)

/-- A whole source brings the names that are listed as its declarations. -/
theorem brings_program (hs : s.Steady) (hc : s.Consistent P)
    (h : program t fuel s = some (names, s')) : Brings P names s s' := by
  induction fuel using Nat.strongRecOn generalizing s s' names with
  | ind fuel ih =>
    obtain ⟨first, s₁, h₁, hcases⟩ := program_cases h
    have hfirst := brings_statements hs hc h₁
    rcases hcases with ⟨-, rfl, rfl⟩ | ⟨-, rest, others, rfl, rfl, h₂⟩
    · exact hfirst
    · -- a brace that closes nothing is passed
      have hstray := (hfirst.report hs s₁.token (.unexpected s₁.current.value)).advance hs t
      exact hstray.trans hs
        (ih rest (Nat.lt_succ_self rest) hstray.steady hstray.consistent h₂)

end CStruct.Parse
