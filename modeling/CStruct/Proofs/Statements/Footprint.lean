import CStruct.Proofs.Statements.Reached

/-!
# What a struct statement touches

A struct statement gives a meaning to three names at most in the scope where it stands: its keyword,
its tag and the name behind its body. All that its body declares stands in scopes of its own. This
holds for every table and every source, with errors or without, wherever the statement comes to an
end.
-/

namespace CStruct.Parse

open SymbolTable State

variable {t : SymbolTable} {s s' s'' s₁ s₂ inside : State} {name tag keyword : SymbolId}
  {body : ScopeId} {fuel : Nat} {P : SymbolId → Prop} {N : String → Prop}
  {names : List SymbolId} {readBody : State → Option State} {name? : Option SymbolId}

namespace State

/-! ## Footprints -/

/-- Between the two states, entries of the open scope change under the names `N` only, and what is
declared is declared there under such a name, or in a new scope. -/
structure Footprint (N : String → Prop) (s s' : State) : Prop extends s.Within s' where
  local? : ∀ other, ¬N other → s'.local? other = s.local? other
  lasts : ∀ d, (s.symbol d).isDeclaration = true → Lasts (s.symbol d) (s'.symbol d)
  recorded : ∀ d, (s'.symbol d).isDeclaration = true → ¬(s.symbol d).isDeclaration = true →
    ∃ k, (s'.symbol d).scope? = some k ∧
      (k = s.scope ∧ N (s'.symbol d).value ∨ s.scopes.size ≤ k ∧ k < s'.scopes.size)

namespace Footprint

theorem trans (h : Footprint N s s') (h' : Footprint N s' s'') : Footprint N s s'' where
  toWithin := h.toWithin.trans h'.toWithin
  local? := fun other hother => (h'.local? other hother).trans (h.local? other hother)
  lasts := fun d hd => (h.lasts d hd).trans (h'.lasts d (h.lasts d hd).declared)
  recorded := fun d hd hnew => by
    by_cases hbetween : (s'.symbol d).isDeclaration = true
    · -- it was declared in the first part, and lasts through the second
      obtain ⟨k, hk, hwhere⟩ := h.recorded d hbetween hnew
      have hlasts := h'.lasts d hbetween
      refine ⟨k, hlasts.scope?.trans hk, hwhere.imp (fun ⟨hopen, hN⟩ => ⟨hopen, ?_⟩)
        fun ⟨hle, hlt⟩ => ⟨hle, Nat.lt_of_lt_of_le hlt h'.scopes_le⟩⟩
      rw [hlasts.value]
      exact hN
    · obtain ⟨k, hk, hwhere⟩ := h'.recorded d hd hbetween
      refine ⟨k, hk, hwhere.imp (fun ⟨hopen, hN⟩ => ⟨hopen.trans h.scope, hN⟩)
        fun ⟨hle, hlt⟩ => ⟨Nat.le_trans h.scopes_le hle, hlt⟩⟩

/-! ### Operations -/

/-- A change to the symbols alone that declares no symbol. -/
theorem of_symbols (hwithin : s.Within s') (hframe : s.ScopeFrame s')
    (hscopes : s'.scopes = s.scopes)
    (hnew : ∀ d, (s'.symbol d).isDeclaration = true → (s.symbol d).isDeclaration = true) :
    Footprint N s s' where
  toWithin := hwithin
  local? := fun other _ => by rw [State.local?, State.local?, hframe.scope, scopeAt, scopeAt, hscopes]
  lasts := hframe.lasts
  recorded := fun d hd hnone => absurd (hnew d hd) hnone

theorem refl (s : State) : Footprint N s s := of_symbols (.refl s) (.refl s) rfl fun _ hd => hd

theorem advance (t : SymbolTable) (s : State) : Footprint N s (s.advance t) := by
  refine of_symbols (Trace.advance (t := t) s).within (scopeFrame_advance t s) scopes_advance ?_
  intro d hd
  rw [← symbol_advance_of_declared (not_undeclared_of_isDeclaration hd)]
  exact hd

theorem diagnostics (s : State) (ds : Diagnostics) :
    Footprint N s { s with diagnostics := ds } :=
  of_symbols (Trace.of_move (t := .basic) (.report s ds)).within (scopeFrame_report s ds) rfl
    fun _ hd => hd

theorem report (s : State) (id : SymbolId) (problem : Problem) :
    Footprint N s (s.report id problem) := diagnostics s _

theorem expect (t : SymbolTable) (id : String) (s : State) : Footprint N s (s.expect t id) := by
  unfold State.expect
  split
  · exact advance t s
  · exact (report s _ _).trans (advance t _)

/-- A symbol is touched up that is not declared, and is not declared then either. -/
theorem touch (hname : s.Undeclared name) {f : Symbol → Symbol} (hf : Edits f)
    (hdeclaration : ∀ x, (f x).declaration? = x.declaration?) :
    Footprint N s (s.modifySymbol name f) := by
  refine of_symbols (Trace.of_move (t := .basic) (.edit s name hf)).within
    (scopeFrame_modifySymbol hname f) rfl fun d hd => ?_
  have hne : d ≠ name := by
    rintro rfl
    refine not_isDeclaration (s := s.modifySymbol d f) ?_ hd
    rw [Undeclared, symbol_modifySymbol]
    split
    · rw [hdeclaration]
      exact hname
    · exact hname
  rw [symbol_modifySymbol_of_ne hne] at hd
  exact hd

/-- More becomes known of a declared name, but not how it was declared. -/
theorem modifyDeclaration (s : State) (id : SymbolId) {f : Declaration → Declaration}
    (htype : ∀ d, (f d).declaredType = d.declaredType) (halias : ∀ d, (f d).isAlias = d.isAlias) :
    Footprint N s (s.modifyDeclaration id f) := by
  refine of_symbols (Trace.of_move (t := .basic) (.edit s id (edits_declaration _))).within
    (scopeFrame_modifyDeclaration s id htype halias) rfl fun d hd => ?_
  rw [symbol_modifyDeclaration] at hd
  split at hd
  · rw [Symbol.isDeclaration, Option.isSome_map] at hd
    exact hd
  · exact hd

theorem setBody (s : State) (tag : SymbolId) (body : ScopeId) :
    Footprint N s (s.setBody tag body) :=
  modifyDeclaration s tag (fun _ => rfl) fun _ => rfl

/-- A name of the footprint is declared in the open scope. -/
theorem of_declared (hname : s.Undeclared name)
    (hsymbol : ∀ id ≠ name, s'.symbol id = s.symbol id) (hscopes : s'.scopes = s.scopes)
    (hscope : s'.scope = s.scope) (houter : s'.outer = s.outer)
    (hself : (s'.symbol name).scope? = some s.scope) (hN : N (s'.symbol name).value) :
    Footprint N s s' where
  toWithin := .of_scopes_eq hscopes hscope houter fun d k hk => by
    by_cases hd : d = name
    · rw [DeclaredIn, hd, hself] at hk
      exact .inr (Option.some.inj hk.2).symm
    · rw [DeclaredIn, Undeclared, hsymbol d hd] at hk
      exact .inl hk
  local? := fun other _ => by rw [State.local?, State.local?, hscope, scopeAt, scopeAt, hscopes]
  lasts := fun d hd => by
    rw [hsymbol d (hname.ne_of_isDeclaration hd)]
    exact .refl hd
  recorded := fun d hd hnew => by
    by_cases hne : d = name
    · rw [hne]
      exact ⟨s.scope, hself, .inl ⟨rfl, hN⟩⟩
    · rw [hsymbol d hne] at hd
      exact absurd hd hnew

/-- A name of the footprint gets an entry. -/
theorem bind (s : State) {value : String} (hN : N value) (id : SymbolId) :
    Footprint N s (s.bind value id) where
  toWithin := (Trace.of_move (t := .basic) (.bind s value id)).within
  local? := fun other hother => by
    show ((s.bind value id).scopeAt s.scope).get? other = _
    rw [scopeAt_bind]
    split
    · rw [Scope.get?, Scope.insert, Dictionary.get?_insert, if_neg]
      · rfl
      · rintro rfl
        exact hother hN
    · rfl
  lasts := fun _ hd => .refl hd
  recorded := fun _ hd hnew => absurd hd hnew

theorem reserve (hkeyword : s.Undeclared keyword) (hN : N (s.symbol keyword).value) :
    Footprint N s (s.reserve keyword) := by
  rcases reserve_cases s keyword with heq | ⟨ds, -, heq⟩
  · rw [heq]
    exact refl s
  · rw [heq]
    have hmark := touch (N := N) (s := { s with diagnostics := ds }) hkeyword edits_reserved
      fun _ => rfl
    exact ((diagnostics s ds).trans hmark).trans (bind _ hN keyword)

section Defining

variable (hlt : name < s.symbols.size) (hname : s.Undeclared name) (hN : N (s.symbol name).value)
include hlt hname hN

theorem declare (type : SymbolId) : Footprint N s (s.declare name type) := by
  refine of_declared hname (fun _ hne => symbol_modifySymbol_of_ne hne) rfl rfl rfl ?_ ?_
  · rw [symbol_declare hlt]
    rfl
  · rw [symbol_declare hlt]
    exact hN

theorem declareAlias (type : SymbolId) : Footprint N s (s.declareAlias name type) := by
  have hself : (s.declareAlias name type).symbol name = _ :=
    (symbol_modifyDeclaration _ _ _ _).trans (if_pos rfl)
  rw [symbol_declare hlt] at hself
  refine of_declared hname (alters_declareAlias s name type).symbol rfl rfl rfl ?_ ?_
  · rw [hself]
    rfl
  · rw [hself]
    exact hN

theorem define (type : SymbolId) : Footprint N s (s.define name type) := by
  obtain ⟨ds, heq⟩ := define_eq s name type
  rw [heq]
  exact ((diagnostics s ds).trans (declare (s := { s with diagnostics := ds }) hlt hname hN type)).trans
    (bind _ hN name)

/-- The typedef name of a struct is of the footprint. The struct has its entry already. -/
theorem defineAlias (type struct : SymbolId) :
    Footprint N s (s.defineAlias name type struct) := by
  obtain ⟨ds, hcases⟩ := defineAlias_cases s name type struct
  have hname := declareAlias (s := { s with diagnostics := ds }) hlt hname hN type
  have htied := ((diagnostics s ds).trans hname).trans
    (modifyDeclaration _ struct (f := ({ · with alias? := some name })) (fun _ => rfl) fun _ => rfl)
  rcases hcases with heq | heq
  · rw [heq]
    exact htied
  · rw [heq]
    exact htied.trans (bind _ hN name)

end Defining

/-- A block leaves no trace in the scope around it: what is declared in it stands in its scope or
inside that. -/
theorem block (hs : s.Regular) (hwithin : s.openScope.Within s')
    (hbrings : Brings P names s.openScope s') : Footprint N s s'.closeScope where
  toWithin := hwithin.block
  local? := fun other _ => by
    rw [hwithin.closeScope_eq]
    show (s'.scopeAt s.scope).get? other = _
    rw [hwithin.scopeAt_block hs.open_lt]
    rfl
  lasts := fun d hd => by
    have hsame : s'.symbol d = s.openScope.symbol d := hbrings.symbol_of_declared
      hs.openScope.steady.bounds (not_undeclared_of_isDeclaration (s := s.openScope) hd)
    rw [hwithin.closeScope_eq]
    show Lasts _ (s'.symbol d)
    rw [hsame]
    exact Lasts.refl hd
  recorded := fun d hd hnew => by
    rw [hwithin.closeScope_eq] at hd ⊢
    change (s'.symbol d).isDeclaration = true at hd
    -- what was read before the block is declared now only if it was declared then
    have hle : s.token ≤ d := by
      by_contra hlt
      have hsame : s'.symbol d = s.openScope.symbol d :=
        hbrings.symbol_of_lt hs.openScope.steady.bounds (Nat.lt_of_not_le hlt)
      rw [hsame] at hd
      exact hnew hd
    have hdeclared := not_undeclared_of_isDeclaration hd
    obtain ⟨k, hk, hwhere⟩ := hbrings.listed.scope? d hle hdeclared
    refine ⟨k, hk, .inr ⟨?_, hs.openScope.scope_lt_of_within hwithin ⟨hdeclared, hk⟩⟩⟩
    rcases hwhere with rfl | hle
    · exact Nat.le_refl _
    · rw [State.openScope, Array.size_push] at hle
      exact Nat.le_of_succ_le hle

end Footprint

/-! ## Names of a struct -/

/-- The spelling of the token, if it is a name. -/
def nameAt? (s : State) : Option String :=
  if s.current.kind = .name then some s.current.value else none

/-- The name behind the body of the struct at the token. -/
def nameBehind? (t : SymbolTable) (readBody : State → Option State) (s : State) : Option String :=
  ((s.body? t).bind readBody).bind fun s => (s.closeScope.expect t closeBrace).nameAt?

/-- The names that get a meaning in the scope where the struct at the token stands. -/
def structNames (t : SymbolTable) (readBody : State → Option State) (s : State) : List String :=
  s.current.value :: ((s.enterStatement t).nameAt?.toList ++ (s.nameBehind? t readBody).toList)

theorem length_structNames_le (t : SymbolTable) (readBody : State → Option State) (s : State) :
    (s.structNames t readBody).length ≤ 3 := by
  have hlength (o : Option String) : o.toList.length ≤ 1 := by
    cases o with
    | none => exact Nat.zero_le 1
    | some name => exact Nat.le_refl 1
  rw [structNames, List.length_cons, List.length_append]
  exact Nat.succ_le_succ (Nat.add_le_add (hlength _) (hlength _))

theorem mem_structNames_of_tag {other : String} (h : (s.enterStatement t).nameAt? = some other) :
    other ∈ s.structNames t readBody := by
  rw [structNames, h]
  exact List.mem_cons_of_mem _ (List.mem_append_left _ List.mem_cons_self)

theorem mem_structNames_of_behind {other : String} (hbody : s.body? t = some inside)
    (hread : readBody inside = some s₂)
    (h : (s₂.closeScope.expect t closeBrace).nameAt? = some other) :
    other ∈ s.structNames t readBody := by
  have hbehind : s.nameBehind? t readBody = some other := by
    rw [nameBehind?, hbody, Option.bind_some, hread, Option.bind_some, h]
  rw [structNames, hbehind]
  exact List.mem_cons_of_mem _ (List.mem_append_right _ List.mem_cons_self)

theorem nameAt?_modifyDeclaration (s : State) (d : SymbolId) (f : Declaration → Declaration) :
    (s.modifyDeclaration d f).nameAt? = s.nameAt? := by
  have hcurrent : (s.modifyDeclaration d f).current = _ := symbol_modifyDeclaration s d f s.token
  have hkind : (s.modifyDeclaration d f).current.kind = s.current.kind := by
    rw [hcurrent]
    split <;> rfl
  have hvalue : (s.modifyDeclaration d f).current.value = s.current.value := by
    rw [hcurrent]
    split <;> rfl
  rw [nameAt?, nameAt?, hkind, hvalue]

theorem undeclared_modifyDeclaration (h : s.Undeclared name) {d : SymbolId}
    {f : Declaration → Declaration} : (s.modifyDeclaration d f).Undeclared name := by
  rw [Undeclared, symbol_modifyDeclaration]
  split
  · exact Option.map_eq_none_iff.2 h
  · exact h

theorem nameAt?_of_name (h : s.current.kind = .name) : s.nameAt? = some s.current.value := if_pos h

end State

/-! ## The parts of a struct -/

/-- The keyword is reserved under its own spelling. -/
theorem footprint_enterStatement (hs : s.Steady) (he : s.endSymbol? = none)
    (hN : N s.current.value) : Footprint N s (s.enterStatement t) := by
  have hpassed := hs.passed he t
  have hvalue : ((s.advance t).symbol s.token).value = s.current.value := by
    rw [symbol_advance hs.token_lt]
    rfl
  have hreserve := (Footprint.advance (N := N) t s).trans
    (.reserve hpassed.undeclared (by rw [hvalue]; exact hN))
  have hkind := edits_kind (show SymbolKind.statement ≠ .endOfInput by decide) (·.first?) (·.second?)
  refine hreserve.trans (.touch ?_ hkind fun _ => rfl)
  exact (Idle.reserve (hs.advance t) (Nat.le_refl _) hpassed).undeclared_of hpassed.undeclared

theorem footprint_passHead (hs : s.Steady) (he : s.endSymbol? = none)
    (hN : N s.current.value) : Footprint N s (s.passHead t) := by
  apply (footprint_enterStatement hs he hN).trans
  unfold State.passHead State.passTag
  split
  · exact .advance t _
  · exact .refl _

/-- The tag is spelled like the token behind the keyword. -/
theorem nameAt?_of_tag? (hs : s.Steady) (htag : s.tag? = some tag) :
    s.nameAt? = some ((s.passTag t).symbol tag).value := by
  unfold State.tag? at htag
  split at htag
  · rename_i hname
    cases htag
    rw [nameAt?_of_name hname, passTag, State.tag?, if_pos hname, if_pos Option.isSome_some,
      symbol_advance hs.token_lt]
    rfl
  · cases htag

/-- The name behind a body is declared in the scope around the struct. -/
theorem footprint_typedefName (hlt : s.token < s.symbols.size) (hnew : s.Undeclared s.token)
    (tag? : Option SymbolId) (hN : ∀ other, s.nameAt? = some other → N other) :
    Footprint N s (typedefName t keyword tag? body s).2 := by
  unfold typedefName
  split
  · rename_i hname
    have hN := hN _ (nameAt?_of_name hname)
    cases tag? with
    | none =>
      exact ((Footprint.define hlt hnew hN keyword).trans (.setBody _ s.token body)).trans
        (.advance t _)
    | some tag => exact (Footprint.defineAlias hlt hnew hN keyword tag).trans (.advance t _)
  · exact .refl s

theorem footprint_structEnd (hs : s.Steady) (tag? : Option SymbolId)
    (hN : ∀ other, (s.closeScope.expect t closeBrace).nameAt? = some other → N other) :
    Footprint N s.closeScope (structEnd t keyword tag? body s).2 := by
  have hclose := (Idle.expect s.closeScope.token hs.closeScope t closeBrace).steady
  have hbrace := Footprint.expect (N := N) t closeBrace s.closeScope
  have hname : Footprint N s.closeScope (typedefName t keyword tag? body (tag?.elim
      (s.closeScope.expect t closeBrace) fun tag =>
        (s.closeScope.expect t closeBrace).setBody tag body)).2 := by
    cases tag? with
    | none =>
      exact hbrace.trans (footprint_typedefName hclose.token_lt hclose.undeclared none hN)
    | some tag =>
      apply (hbrace.trans (.setBody _ tag body)).trans
      rw [Option.elim_some]
      -- that the tag gets its body does not matter to the token
      refine footprint_typedefName ?_ (undeclared_modifyDeclaration hclose.undeclared) _ ?_
      · rw [State.modifyDeclaration, State.modifySymbol, Array.size_modify]
        exact hclose.token_lt
      · rw [nameAt?_modifyDeclaration]
        exact hN
  unfold structEnd
  dsimp only
  apply hname.trans
  split
  · exact (Footprint.report _ keyword _).trans (.expect t _ _)
  · exact .expect t _ _

theorem footprint_defineTag (tag? : Option SymbolId)
    (htag : ∀ tag ∈ tag?, tag < s.symbols.size ∧ s.Undeclared tag ∧ N (s.symbol tag).value) :
    Footprint N s (tag?.elim s fun tag => s.define tag keyword) := by
  cases tag? with
  | none => exact .refl s
  | some tag =>
    obtain ⟨hlt, hnew, hN⟩ := htag tag rfl
    exact .define hlt hnew hN keyword

theorem footprint_forwardDeclaration (tag? : Option SymbolId)
    (htag : ∀ tag ∈ tag?, tag < s.symbols.size ∧ s.Undeclared tag ∧ N (s.symbol tag).value) :
    Footprint N s (forwardDeclaration keyword tag? s).2 := by
  unfold forwardDeclaration
  cases tag? with
  | none => exact .report s keyword _
  | some tag =>
    obtain ⟨hlt, hnew, hN⟩ := htag tag rfl
    dsimp only
    split
    · exact .refl s
    · exact .define hlt hnew hN keyword

/-- What a struct statement touches in the scope where it stands. -/
theorem footprint_struct (hs : s.Regular) (he : s.endSymbol? = none)
    (hstd : s.current.role.std = some .struct)
    (hread : statement t (bodyReader t fuel) s = some (name?, s')) :
    Footprint (· ∈ s.structNames t (bodyReader t fuel)) s s' := by
  obtain ⟨P, hc⟩ := hs.consistent
  obtain ⟨hidle, -⟩ := idle_enterStatement (t := t) hs.steady he hstd
  obtain ⟨hhead, -, htag⟩ := brings_passHead (t := t) hs.steady hc he hstd
  have hstart := footprint_passHead (t := t) (N := (· ∈ s.structNames t (bodyReader t fuel)))
    hs.steady he List.mem_cons_self
  have hN (tag : SymbolId) (h : (s.enterStatement t).tag? = some tag) :
      ((s.passHead t).symbol tag).value ∈ s.structNames t (bodyReader t fuel) :=
    mem_structNames_of_tag (nameAt?_of_tag? hidle.steady h)
  rcases statement_struct_cases hstd hread with ⟨-, hend⟩ | ⟨s₂, hbody, h₂, hend⟩
  · -- the tag is declared behind the semicolon
    rw [hend]
    refine (hstart.trans (.advance t _)).trans (footprint_forwardDeclaration _ fun tag h => ?_)
    have hlt := Nat.lt_trans (htag tag h).lt hhead.steady.token_lt
    have hpassed := (Idle.advance tag hhead.steady t).passed (htag tag h).toPassed hhead.steady
    refine ⟨Nat.lt_trans hpassed.lt (hhead.steady.advance t).token_lt, hpassed.undeclared, ?_⟩
    rw [symbol_advance hlt]
    exact hN tag h
  · -- the tag is declared before the body, and what stands in the body is a block
    have hbrace : Footprint (· ∈ s.structNames t (bodyReader t fuel)) s (s.passOpenBrace t) := by
      refine (hstart.trans (footprint_defineTag _ fun tag h => ?_)).trans (.expect t _ _)
      exact ⟨Nat.lt_trans (htag tag h).lt hhead.steady.token_lt, (htag tag h).undeclared, hN tag h⟩
    have hbefore := hs.passOpenBrace (t := t) he hstd
    obtain ⟨Q, hc⟩ := hbefore.openScope.consistent
    obtain ⟨names, hbrings⟩ :=
      bringsBody_bodyReader t fuel Q _ _ hbefore.openScope.steady hc h₂
    rw [hend]
    exact (hbrace.trans (.block hbefore (Trace.of_bodyReader h₂).within hbrings)).trans
      (footprint_structEnd hbrings.steady _ fun other => mem_structNames_of_behind hbody h₂)

/-! ## At the end -/

/-- No name is declared at the keyword of a statement. -/
theorem isDeclaration_enterStatement {d : SymbolId}
    (hd : ((s.enterStatement t).symbol d).isDeclaration = true) :
    (s.symbol d).isDeclaration = true := by
  rw [State.enterStatement, symbol_modifySymbol] at hd
  split at hd
  · cases hd
  · rename_i hnone
    have hne : d ≠ s.token := by
      rintro rfl
      rw [symbol_of_size_le (Nat.le_of_not_lt fun hlt => hnone ⟨rfl, hlt⟩)] at hd
      cases hd
    rw [symbol_reserve_of_ne hne] at hd
    rw [← symbol_advance_of_declared (not_undeclared_of_isDeclaration hd)]
    exact hd

theorem local?_enterStatement (hlt : s.token < s.symbols.size) {other : String}
    (hother : other ≠ s.current.value) : (s.enterStatement t).local? other = s.local? other := by
  have hadvance : (s.advance t).local? other = s.local? other := by
    rw [State.local?, State.local?, State.scopeAt, State.scopeAt, scope_advance.1, scopes_advance]
  have hvalue : ((s.advance t).symbol s.token).value = s.current.value := by
    rw [symbol_advance hlt]
    rfl
  rw [← hadvance]
  show ((s.advance t).reserve s.token).local? other = _
  rcases reserve_cases (s.advance t) s.token with heq | ⟨ds, -, heq⟩
  · rw [heq]
  · rw [heq, hvalue]
    exact (Footprint.bind (N := (· = s.current.value)) _ rfl s.token).local? other hother

/-- At the end, under whatever name, a struct is declared ahead if it is read at all: it has no tag,
and nothing else is read before it than its keyword. -/
theorem State.Halted.struct {id : String} (h : s.Halted id) (hopen : s.atClose = false)
    (hstd : s.current.role.std = some .struct)
    (hread : statement t (bodyReader t fuel) s = some (name?, s')) :
    s' = ((s.enterStatement t).advance t).report s.token .structNameMissing := by
  have htoken : (s.advance t).token = s.token := by
    rw [advance_eq_stay h.endSymbol? (by rw [h.pending]; rfl)]
  have hlt : s.token < ((s.advance t).reserve s.token).symbols.size := by
    rw [size_reserve, ← htoken]
    exact (h.advance t).token_lt
  have htag : (s.enterStatement t).tag? = none := by
    have hstay : (s.enterStatement t).token = s.token := token_reserve.trans htoken
    rw [State.tag?, State.current, hstay, State.enterStatement, symbol_modifySymbol_self hlt]
    exact if_neg (show SymbolKind.statement ≠ .name by decide)
  rcases statement_struct_cases hstd hread with ⟨-, hend⟩ | ⟨s₂, hbody, h₂, -⟩
  · rw [hend, htag, State.passHead, State.passTag, htag]
    rfl
  · have hinside := h.body hbody
    obtain ⟨names, h₂⟩ := bodyReader_cases h₂
    rw [hinside.statements_eq_none ((h.atClose_eq hinside).trans hopen)] at h₂
    cases h₂

theorem State.Halted.footprint_struct {id : String} (h : s.Halted id) (hopen : s.atClose = false)
    (hstd : s.current.role.std = some .struct)
    (hread : statement t (bodyReader t fuel) s = some (name?, s')) :
    (∀ other ≠ s.current.value, s'.local? other = s.local? other) ∧
      ∀ d, (s'.symbol d).isDeclaration = true → (s.symbol d).isDeclaration = true := by
  rw [h.struct hopen hstd hread]
  have hpass := Footprint.advance (N := fun _ => False) t (s.enterStatement t)
  refine ⟨fun other hother => ?_, fun d hd => isDeclaration_enterStatement (t := t) ?_⟩
  · exact (hpass.local? other not_false).trans (local?_enterStatement h.token_lt hother)
  · rw [← symbol_advance_of_declared (not_undeclared_of_isDeclaration hd)]
    exact hd

/-- A struct statement that is read to its end leaves all scopes alone but its own, and its own but
for the keyword, the tag and the name behind the body. What it declares is recorded under these
names or in scopes of its own. -/
theorem struct_touches_its_names {lexemes : List Lexeme} {endPosition : Position}
    (hreached : Reaches t ((State.ofLexemes lexemes endPosition).advance t) s)
    (hopen : s.atClose = false) (hstd : s.current.role.std = some .struct)
    (hread : statement t (bodyReader t fuel) s = some (name?, s')) :
    (s.structNames t (bodyReader t fuel)).length ≤ 3 ∧
    s'.scope = s.scope ∧ s'.outer = s.outer ∧
    (∀ k < s.scopes.size, k ≠ s.scope → s'.scopeAt k = s.scopeAt k) ∧
    (∀ other ∉ s.structNames t (bodyReader t fuel),
      (s'.scopeAt s.scope).get? other = (s.scopeAt s.scope).get? other) ∧
    ∀ d, (s'.symbol d).isDeclaration = true → (s.symbol d).isDeclaration = false →
      ∃ k, (s'.symbol d).scope? = some k ∧
        (k = s.scope ∧ (s'.symbol d).value ∈ s.structNames t (bodyReader t fuel) ∨
          s.scopes.size ≤ k ∧ k < s'.scopes.size) := by
  have hwithin := (Trace.of_statement (fun _ _ => Trace.of_bodyReader) hread).within
  obtain ⟨hlocal, hrecorded⟩ :
      (∀ other ∉ s.structNames t (bodyReader t fuel), s'.local? other = s.local? other) ∧
      ∀ d, (s'.symbol d).isDeclaration = true → (s.symbol d).isDeclaration = false →
        ∃ k, (s'.symbol d).scope? = some k ∧
          (k = s.scope ∧ (s'.symbol d).value ∈ s.structNames t (bodyReader t fuel) ∨
            s.scopes.size ≤ k ∧ k < s'.scopes.size) := by
    -- at the end nothing but the keyword is touched, and only then is the state not regular
    rcases hreached.live_or_halted (regular_ofLexemes t lexemes endPosition) with
      ⟨hregular, he⟩ | ⟨id, hhalted⟩
    · have h := footprint_struct hregular he hstd hread
      exact ⟨h.local?, fun d hd hnew => h.recorded d hd (Bool.eq_false_iff.1 hnew)⟩
    · obtain ⟨hnamed, hnothing⟩ := hhalted.footprint_struct hopen hstd hread
      refine ⟨fun other hother => hnamed other fun heq => ?_, fun d hd hnew => ?_⟩
      · exact hother (by rw [heq]; exact List.mem_cons_self)
      · rw [hnothing d hd] at hnew
        cases hnew
  refine ⟨length_structNames_le t _ s, hwithin.scope, hwithin.outer, hwithin.scopeAt,
    fun other hother => ?_, hrecorded⟩
  have hsame := hlocal other hother
  rw [State.local?, State.local?, hwithin.scope] at hsame
  exact hsame

def innerStructs : String := "struct a \x7b struct b \x7b char c; \x7d p; \x7d q;"

/-- In the body of the struct `a`, where the struct `b` is about to be read. -/
def innerStruct : State := ((State.ofSource innerStructs).passOpenBrace cStructs).openScope

theorem innerStruct_touches_its_names :
    innerStruct.structNames cStructs (bodyReader cStructs 5) = ["struct", "b", "p"] ∧
    ∃ name? s', statement cStructs (bodyReader cStructs 5) innerStruct = some (name?, s') ∧
      s'.scope = 1 ∧ s'.scopeAt 0 = innerStruct.scopeAt 0 ∧
      ∀ other ∉ ["struct", "b", "p"], (s'.scopeAt 1).get? other = (innerStruct.scopeAt 1).get? other := by
  obtain ⟨hbody, hopen, hstd, hscope, hlt, hopen', hstd', hnames, hsome⟩ :
      ¬((State.ofSource innerStructs).passHead cStructs).check ";" = true ∧
      (State.ofSource innerStructs).atClose = false ∧
      (State.ofSource innerStructs).current.role.std = some .struct ∧
      innerStruct.scope = 1 ∧ 0 < innerStruct.scopes.size ∧ innerStruct.atClose = false ∧
      innerStruct.current.role.std = some .struct ∧
      innerStruct.structNames cStructs (bodyReader cStructs 5) = ["struct", "b", "p"] ∧
      (statement cStructs (bodyReader cStructs 5) innerStruct).isSome = true := by
    decide +kernel
  obtain ⟨⟨name?, s'⟩, hread⟩ := Option.isSome_iff_exists.1 hsome
  have hreached : Reaches cStructs (State.ofSource innerStructs) innerStruct :=
    .body .refl hopen hstd (if_neg hbody)
  obtain ⟨-, hscope', -, hothers, hnamed, -⟩ :=
    struct_touches_its_names hreached hopen' hstd' hread
  rw [hnames, hscope] at hnamed
  rw [hscope] at hscope' hothers
  exact ⟨hnames, name?, s', hread, hscope', hothers 0 hlt Nat.zero_ne_one, hnamed⟩

end CStruct.Parse
