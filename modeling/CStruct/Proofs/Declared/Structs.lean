import CStruct.Proofs.Declared.Members

/-!
# What a declaration of a struct brings

A struct is declared under its tag before its body is read, or under the name behind its body
otherwise. The body is a block: what is declared in it stands in the scope of the body or in scopes
inside that one, so that nothing of it is among the names that the struct brings. A typedef name
behind a tagged struct is tied to the tag.
-/

namespace CStruct.Parse

open SymbolTable State

variable {t : SymbolTable} {s s' : State} {n name keyword tag : SymbolId} {k body : ScopeId}
  {P : SymbolId → Prop} {names : List SymbolId}

/-! ## Blocks -/

namespace State

/-- A scope inside the scope `k` that has been closed, and that is not the body of a struct yet. -/
structure Unclaimed (s : State) (body k : ScopeId) : Prop where
  pos : 0 < body
  lt : body < s.scopes.size
  parent? : (s.scopeAt body).parent? = some k
  closed : body ∉ s.scope :: s.outer
  unowned : ∀ e, (s.symbol e).innerScope? ≠ some body

theorem Unclaimed.of_idle (h : s.Unclaimed body k) (hidle : Idle n s s') : s'.Unclaimed body k where
  pos := h.pos
  lt := by
    rw [hidle.scopes_size]
    exact h.lt
  parent? := by
    rw [hidle.parent? body h.lt]
    exact h.parent?
  closed := by
    rw [hidle.scope, hidle.outer]
    exact h.closed
  unowned := fun e he => by
    by_cases hlt : e < s.symbols.size
    · rw [(hidle.handled e hlt).retouched] at he
      exact h.unowned e he
    · rw [Nested.innerScope?_eq_none (hidle.undeclared e (Nat.le_of_not_lt hlt))] at he
      cases he

theorem scope_openScope (s : State) : s.openScope.scope = s.scopes.size := rfl

theorem Steady.openScope (h : s.Steady) : s.openScope.Steady := by
  refine h.of_symbol_eq rfl rfl rfl rfl rfl fun k name id hk => ?_
  rw [scopeAt_openScope] at hk
  split at hk
  · cases hk
  · exact h.entry_lt k name id hk

theorem Steady.closeScope (h : s.Steady) : s.closeScope.Steady := by
  unfold State.closeScope
  split
  · exact h
  · exact h.of_symbol_eq rfl rfl rfl rfl rfl h.entry_lt

end State

/-- A block brings nothing to the scope around it, and leaves a scope that a struct can have as its
body. -/
theorem brings_block (hs : s.Steady) (hc : s.Consistent P)
    (h : Brings P names s.openScope s') :
    Brings P [] s s'.closeScope ∧ s'.closeScope.Unclaimed s.scopes.size s.scope := by
  have hopen : ∀ k ∈ s.scope :: s.outer, k < s.scopes.size := hc.nested.open_lt
  have hscope : s.scope < s.scopes.size := hopen s.scope List.mem_cons_self
  -- behind the block, the scopes are open that were open before it
  have hclose : s'.closeScope = { s' with scope := s.scope, outer := s.outer } := by
    rw [State.closeScope, show s'.outer = s.scope :: s.outer from h.outer]
  have hscope' : s'.closeScope.scope = s.scope := by rw [hclose]
  have houter' : s'.closeScope.outer = s.outer := by rw [hclose]
  have hspares : Spares s.token s s' :=
    (Spares.openScope s.token s).trans h.toSpares (Nat.le_refl _)
  refine ⟨⟨hspares.trans (.closeScope s.token s') (Nat.le_refl _), h.steady.closeScope,
    h.consistent.closeScope ?_, hscope', houter', ?_⟩, ?_⟩
  · rw [hscope', houter']
    exact hc.inside
  · -- what the block declares stands in its scope, or in one of those that it opens
    have hbefore : Listed s.token s.scope s.scopes.size [] s.openScope :=
      (Listed.start hs s.scope s.scopes.size).of_spares (bounds_size s) (.openScope _ s)
        fun d hle hd => absurd ((bounds_size s).declared d hd) (Nat.not_lt_of_le hle)
    have hinside := hbefore.of_spares hs.openScope.bounds h.toSpares fun d hle hd => by
      obtain ⟨j, hj, hopened⟩ := h.listed.scope? d hle hd
      have hge : s.scopes.size ≤ j := by
        rcases hopened with rfl | hlater
        · exact Nat.le_refl _
        · rw [State.openScope, Array.size_push] at hlater
          exact Nat.le_of_succ_le hlater
      exact ⟨j, hj, hge, Nat.ne_of_gt (Nat.lt_of_lt_of_le hscope hge)⟩
    exact hinside.of_spares (bounds_size s') (.closeScope _ s')
      fun d hle hd => by
        have hsize : s'.closeScope.symbols.size = s'.symbols.size := by rw [hclose]
        rw [← hsize] at hle
        exact absurd ((bounds_size _).declared d hd) (Nat.not_lt_of_le hle)
  · have hlt : s.scopes.size < s.openScope.scopes.size := by
      rw [State.openScope, Array.size_push]
      exact Nat.lt_succ_self _
    refine ⟨Nat.zero_lt_of_lt hscope, ?_, ?_, ?_, ?_⟩
    · rw [hclose]
      exact Nat.lt_of_lt_of_le hlt h.scopes_le
    · have hparent := h.parent? _ hlt
      rw [scopeAt_openScope, if_pos rfl] at hparent
      rw [hclose]
      exact hparent
    · rw [hscope', houter']
      exact fun hmem => Nat.lt_irrefl _ (hopen _ hmem)
    · intro e he
      rw [hclose] at he
      apply h.consistent.nested.unowned s'.scope List.mem_cons_self e
      rw [show s'.scope = s.scopes.size from h.scope]
      exact he

theorem token_lt_expect (hs : s.Steady) (he : s.endSymbol? = none) (t : SymbolTable) (id : String) :
    s.token < (s.expect t id).token := by
  unfold State.expect
  split
  · rw [token_advance he]
    exact hs.token_lt
  · rw [token_advance (s := s.reportExpected id) he]
    exact hs.token_lt

/-- The body of a struct, with its braces. Unless the source ends before it, it is not empty. -/
theorem brings_body (hs : s.Steady) (hc : s.Consistent P)
    (h : Brings P names (s.expect t openBrace).openScope s') :
    Brings P [] s (s'.closeScope.expect t closeBrace) ∧
      (s'.closeScope.expect t closeBrace).Unclaimed (s.expect t openBrace).scopes.size s.scope ∧
      (s.endSymbol? = none → s.token < (s'.closeScope.expect t closeBrace).token) := by
  have hopen := Idle.expect s.token hs t openBrace
  obtain ⟨hblock, hbody⟩ := brings_block hopen.steady (hc.of_idle hs hopen) h
  have hclose := Idle.expect s'.closeScope.token hblock.steady t closeBrace
  refine ⟨((Brings.of_idle hs hc hopen).trans hs hblock).idle hs hclose, ?_, fun he => ?_⟩
  · rw [← hopen.scope]
    exact hbody.of_idle hclose
  · have hrest := hblock.idle hopen.steady hclose
    exact Nat.lt_of_lt_of_le (token_lt_expect hs he t openBrace)
      (hrest.token_le hopen.steady hrest.steady)

/-! ## The name behind a body -/

/-- A struct without a tag is declared under its name, together with its body. -/
theorem brings_typedef (hs : s.Steady) (hc : s.Consistent P) (hname : s.current.kind = .name)
    (hkeyword : s.IsKeyword keyword .struct) (hlt : keyword + 1 < s.token)
    (hbody : s.Unclaimed body s.scope) :
    Brings P [s.token] s (((s.define s.token keyword).setBody s.token body).advance t) := by
  have he := hs.not_end hname
  obtain ⟨hscope, houter, hscopes⟩ := scope_define s s.token keyword
  have hdefined := isDeclared_define hs.token_lt (Nat.lt_of_succ_lt hlt) hkeyword
  have hdeclared : ((s.define s.token keyword).setBody s.token body).IsDeclared s.token s.scope
      .struct { declaredType := keyword, innerScope? := some body } :=
    hdefined.modifyDeclaration ({ · with innerScope? := some body }) rfl
  have hpassed := (Spares.advance _ t _).isDeclared (bounds_size _) hdeclared
  have hconsistent : ((s.define s.token keyword).setBody s.token body).Consistent
      fun e => e = s.token ∨ P e := by
    have hdefine := hc.define hs.token_lt hname hs.undeclared hs.ne_token keyword
    refine (hdefine.setBody (hdefined.bare rfl rfl) hbody.pos ?_ ?_ ?_ ?_).mono fun d hd => ?_
    · rw [hscopes]
      exact hbody.lt
    · rw [(spares_define (Nat.le_refl s.token)).parent? body hbody.lt, hbody.parent?]
      exact hdefined.scope?.symm
    · rw [hscope, houter]
      exact hbody.closed
    · intro e he
      by_cases heq : e = s.token
      · -- the name has just been declared without a body
        rw [heq, Symbol.innerScope?, hdefined.declaration?] at he
        cases he
      · rw [(alters_define s s.token keyword).symbol e heq] at he
        exact hbody.unowned e he
    · exact hd.elim .inl id
  have hspares : Spares s.token s ((s.define s.token keyword).setBody s.token body) :=
    (spares_define (Nat.le_refl _)).trans (.modifyDeclaration (Nat.le_refl _) _) (Nat.le_refl _)
  have halters := (alters_define s s.token keyword).trans
    (alters_modifyDeclaration _ s.token ({ · with innerScope? := some body }))
  have hlisted := (Listed.start hs s.scope s.scopes.size).insert halters hname hdeclared.kind
    hdeclared.scope? (Nat.le_refl _) ⟨_, hdeclared, rfl⟩
  have hsize : ((s.define s.token keyword).setBody s.token body).symbols.size = s.token + 1 := by
    rw [State.setBody, State.modifyDeclaration, State.modifySymbol, Array.size_modify, size_define,
      hs.size]
  have he : ((s.define s.token keyword).setBody s.token body).endSymbol? = none :=
    (endSymbol?_define s s.token keyword).trans he
  exact brings_pass hspares hscope houter he hsize hconsistent (.untagged hpassed hlt) hlisted

/-! ## Typedef names of tagged structs -/

namespace State

/-- Declares a name as a typedef name. -/
def declareAlias (s : State) (name type : SymbolId) : State :=
  (s.declare name type).modifyDeclaration name ({ · with isAlias := true })

/-- Lets a struct know of its typedef name. -/
def tie (s : State) (struct name : SymbolId) : State :=
  s.modifyDeclaration struct ({ · with alias? := some name })

/-- A typedef name is declared and tied to its struct. It gets an entry unless the struct stands
under the same name. -/
theorem defineAlias_cases (s : State) (name type struct : SymbolId) :
    ∃ ds, s.defineAlias name type struct =
        (declareAlias { s with diagnostics := ds } name type).tie struct name ∨
      s.defineAlias name type struct =
        ((declareAlias { s with diagnostics := ds } name type).tie struct name).bind
          (s.symbol name).value name := by
  obtain ⟨ds, heq⟩ := defineAlias_eq s name type struct
  refine ⟨ds, ?_⟩
  rw [heq]
  dsimp only
  split
  · exact .inl rfl
  · exact .inr rfl

theorem alters_declareAlias (s : State) (name type : SymbolId) :
    Alters name s (s.declareAlias name type) :=
  (alters_declare s name type).trans (alters_modifyDeclaration _ name _)

theorem Spares.declareAlias (h : n ≤ name) (type : SymbolId) :
    Spares n s (s.declareAlias name type) :=
  (Spares.declare h type).trans (.modifyDeclaration h _) (Nat.le_refl n)

theorem isDeclared_declareAlias (hname : name < s.symbols.size) (hlt : keyword < name)
    (hkeyword : s.IsKeyword keyword .struct) :
    (s.declareAlias name keyword).IsDeclared name s.scope .struct
      { declaredType := keyword, isAlias := true } :=
  (isDeclared_declare hname hlt hkeyword).modifyDeclaration ({ · with isAlias := true }) rfl

theorem Consistent.declareAlias (h : s.Consistent P) (hs : s.Steady)
    (hname : s.current.kind = .name) (hkeyword : s.IsKeyword keyword .struct) :
    (s.declareAlias s.token keyword).Consistent fun e => e = s.token ∨ P e := by
  have hdeclared := isDeclared_declare hs.token_lt (hs.bounds.keyword _ _ hkeyword) hkeyword
  have hdeclare := h.declare hs.token_lt (bare_of_undeclared hname hs.undeclared) hs.ne_token
    keyword
  have hmark := hdeclare.modifyDeclaration (f := ({ · with isAlias := true }))
    (hdeclared.bare rfl rfl) fun _ => rfl
  exact hmark.mono fun d hd => hd.elim .inl fun hd => hd

section Tying

variable (hname : s.IsDeclared name k .struct { declaredType := keyword, isAlias := true })
  (hdeclared : s.IsDeclared tag k .struct { declaredType := keyword, innerScope? := some body })
include hname hdeclared

/-- The one is a typedef name and the other is not. -/
theorem isDeclared_tie : (s.tie tag name).IsDeclared name k .struct
    { declaredType := keyword, isAlias := true } := by
  apply (alters_modifyDeclaration s tag _).isDeclared hdeclared.kind hname
  rintro rfl
  cases hname.declaration?.symm.trans hdeclared.declaration?

theorem Consistent.tie (h : s.Consistent fun e => e = name ∨ P e) (htag : tag = keyword + 1)
    (hbody : (s.symbol (tag + 1)).id ≠ ";") :
    (s.tie tag name).Consistent fun e => e = name ∨ P e := by
  have htied := hdeclared.modifyDeclaration ({ · with alias? := some name }) rfl
  have hchanged := h.modifyDeclaration (f := ({ · with alias? := some name }))
    (hdeclared.bare rfl rfl) fun _ => rfl
  refine hchanged.settle (.tagged htied htag ?_ ?_)
  · rw [(alters_modifyDeclaration s tag _).symbol _ (Nat.succ_ne_self tag)]
    exact hbody
  · rintro b ⟨⟩
    exact isDeclared_tie hname hdeclared

end Tying

end State

/-- A name that has been tied to its tag gets its entry, perhaps, and is passed. -/
theorem brings_tied {a : State} {value : String} (hspares : Spares s.token s s')
    (hscope : s'.scope = s.scope) (houter : s'.outer = s.outer) (he : s'.endSymbol? = none)
    (hsize : s'.symbols.size = name + 1)
    (hc : s'.Consistent fun e => e = name ∨ P e)
    (hname : s'.IsDeclared name s.scope .struct { declaredType := keyword, isAlias := true })
    (htied : (s'.symbol (keyword + 1)).alias? = some name)
    (hlisted : Listed s.token s.scope s.scopes.size names s')
    (hvalue : (s'.symbol name).value = value) (ha : a = s' ∨ a = s'.bind value name) :
    Brings P names s (a.advance t) := by
  have hpassed : ∀ a : State, a.symbols = s'.symbols → (a.advance t).Made name := by
    intro a hsymbols
    have hsymbol (i : SymbolId) : a.symbol i = s'.symbol i := by
      rw [State.symbol, State.symbol, hsymbols]
    have hspares := Spares.advance a.symbols.size t a
    have hlast := hname.transfer (hsymbol name) fun hk => hk.of_symbol_eq (hsymbol keyword)
    refine .aliased (hspares.isDeclared (bounds_size a) hlast) ?_
    have htag : (a.symbol (keyword + 1)).alias? = some name := by rw [hsymbol, htied]
    rw [hspares.symbol_of_declared (bounds_size a) (not_undeclared_of_alias? htag)]
    exact htag
  rcases ha with rfl | rfl
  · exact brings_pass hspares hscope houter he hsize hc (hpassed _ rfl) hlisted
  · refine brings_pass (hspares.trans (.bind _ _ _ _) (Nat.le_refl _)) hscope houter he hsize
      (hc.bind ⟨hvalue, .inl ⟨hname.kind, ?_, hname.declared⟩⟩) (hpassed _ rfl) ?_
    · rw [hscope]
      exact hname.scope?
    · exact hlisted.of_spares (bounds_size s') (.bind _ _ _ _) fun d hle hd =>
        absurd ((bounds_size s').declared d hd) (Nat.not_lt_of_le hle)

section Aliasing

variable (hname : s'.current.kind = .name) (hlt : s.token ≤ tag)
  (hdeclared : s'.IsDeclared tag s.scope .struct
    { declaredType := keyword, innerScope? := some body })
  (htag : tag = keyword + 1) (hbody : (s'.symbol (tag + 1)).id ≠ ";")
include hname hlt hdeclared htag hbody

theorem brings_declareAlias {a : State} (h : Brings P names s s')
    (ha : a = (s'.declareAlias s'.token keyword).tie tag s'.token ∨
      a = ((s'.declareAlias s'.token keyword).tie tag s'.token).bind s'.current.value s'.token) :
    Brings P names s (a.advance t) := by
  have htoken := h.steady.lt_of_declared hdeclared.declared
  have hle := Nat.le_trans hlt (Nat.le_of_lt htoken)
  have hkeyword := h.steady.bounds.keyword _ _ hdeclared.keyword
  have halters := alters_declareAlias s' s'.token keyword
  -- the name is declared, and the tag stays as it is meanwhile
  have halias := isDeclared_declareAlias h.steady.token_lt hkeyword hdeclared.keyword
  rw [h.scope] at halias
  have hstruct := halters.isDeclared hname hdeclared (Nat.ne_of_lt htoken)
  have hspares : Spares s.token s' (s'.declareAlias s'.token keyword) := .declareAlias hle keyword
  have hnext : ((s'.declareAlias s'.token keyword).symbol (tag + 1)).id ≠ ";" := by
    rw [hspares.id (tag + 1)]
    · exact hbody
    · rw [h.steady.size]
      exact Nat.succ_lt_succ htoken
  -- neither of the two changes makes or unmakes the name of a struct
  have hlisted := h.listed.alter halters hname halias.kind halias.scope?
    (iff_of_false (not_heads_of_isAlias halias rfl) fun hh => hh.declared h.steady.undeclared)
  have hlisted := Brings.listed_modifyDeclaration (f := ({ · with alias? := some s'.token }))
    hstruct rfl rfl hlisted
  have htied := hstruct.modifyDeclaration ({ · with alias? := some s'.token }) rfl
  have hsize :
      ((s'.declareAlias s'.token keyword).tie tag s'.token).symbols.size = s'.token + 1 := by
    rw [tie, declareAlias, State.modifyDeclaration, State.modifyDeclaration, State.declare,
      State.modifySymbol, State.modifySymbol, State.modifySymbol, Array.size_modify,
      Array.size_modify, Array.size_modify, h.steady.size]
  apply brings_tied ((h.toSpares.trans hspares (Nat.le_refl _)).trans (.modifyDeclaration hlt _)
    (Nat.le_refl _)) h.scope h.outer (h.steady.not_end hname) hsize
    ((h.consistent.declareAlias h.steady hname hdeclared.keyword).tie halias hstruct htag hnext)
    (isDeclared_tie halias hstruct) ?_ hlisted ?_ ha
  · rw [← htag, Symbol.alias?]
    exact congrArg (·.bind (·.alias?)) htied.declaration?
  · show ((((s'.declare s'.token keyword).modifyDeclaration s'.token _).modifyDeclaration tag
      _).symbol s'.token).value = s'.current.value
    rw [symbol_modifyDeclaration, if_neg (Nat.ne_of_gt htoken), symbol_modifyDeclaration,
      if_pos rfl, symbol_declare h.steady.token_lt]
    rfl

/-- The typedef name of a struct that has been declared under its tag is tied to the tag. It is not
among the names of structs. -/
theorem brings_alias (hs : s.Steady) (h : Brings P names s s') :
    Brings P names s ((s'.defineAlias s'.token keyword tag).advance t) := by
  obtain ⟨ds, hcases⟩ := defineAlias_cases s' s'.token keyword tag
  have hreport := h.idle hs (.diagnostics s'.token h.steady ds)
  have hstruct : IsDeclared { s' with diagnostics := ds } tag s.scope .struct
      { declaredType := keyword, innerScope? := some body } :=
    hdeclared.transfer rfl fun hk => hk.of_symbol_eq rfl
  have hname : (current { s' with diagnostics := ds }).kind = .name := hname
  exact brings_declareAlias hname hlt hstruct htag hbody hreport hcases

end Aliasing

end CStruct.Parse
