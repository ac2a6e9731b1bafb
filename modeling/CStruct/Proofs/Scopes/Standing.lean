import CStruct.Proofs.Scopes.Settled

/-!
# Clean sources settle their declarations

A step that reports nothing keeps the declarations settled, and so does a whole run. A declaration
takes the place of another without a warning only where it completes a forward declaration: a
keyword in its place is reported, and so is any other name.
-/

namespace CStruct.Parse

open SymbolTable State

namespace State

variable {t : SymbolTable} {s s' : State} {name type tag : SymbolId} {O O' : SymbolId → Prop}

/-! ## Steps that report nothing -/

/-- Nothing has been reported. -/
def Clean (s : State) : Prop := s.diagnostics.toList = []

theorem Grows.clean (h : s.Grows s') (hclean : s'.Clean) : s.Clean := h.toList_eq_nil hclean

theorem not_clean_report (s : State) (id : SymbolId) (problem : Problem) :
    ¬(s.report id problem).Clean := by
  intro h
  rw [Clean, toList_report] at h
  exact List.append_ne_nil_of_right_ne_nil _ (List.cons_ne_nil _ _) h

/-- A name is defined without a warning only if it is free, or if it completes a forward
declaration. -/
theorem define_of_clean (h : (s.define name type).Clean) :
    (∀ existing, s.local? (s.symbol name).value = some existing →
      s.completesForward existing type = true) ∧
    s.define name type = (s.declare name type).bind (s.symbol name).value name := by
  unfold State.define at h ⊢
  dsimp only at h ⊢
  split at h
  · exact absurd h (not_clean_report s name _)
  · rename_i hknown
    refine ⟨fun existing hlocal => ?_, if_neg hknown ▸ rfl⟩
    rw [hlocal, Option.any_some, Bool.not_eq_true'] at hknown
    exact Bool.not_eq_false _ ▸ hknown

theorem defineAlias_of_clean (h : (s.defineAlias name type tag).Clean) :
    s.local? (s.symbol name).value = none ∧ s.defineAlias name type tag =
      (((s.declare name type).modifyDeclaration name ({ · with isAlias := true })).bind
        (s.symbol name).value name).modifyDeclaration tag ({ · with alias? := some name }) := by
  cases hlocal : s.local? (s.symbol name).value with
  | some existing =>
    have hwarned : (s.warnDefined name).Grows (s.defineAlias name type tag) := by
      unfold State.defineAlias
      dsimp only
      rw [hlocal, Option.isSome_some, if_pos rfl]
      generalize s.warnDefined name = s₁
      split <;> exact .of_eq rfl
    exact absurd (hwarned.clean h) (not_clean_report s name _)
  | none =>
    refine ⟨rfl, ?_⟩
    unfold State.defineAlias
    dsimp only
    rw [hlocal]
    rfl

/-- A keyword is reserved without a warning only if it takes the place of no name. -/
theorem reserve_of_clean (h : (s.reserve name).Clean) :
    s.reserve name = s ∨
    (∀ existing, s.local? (s.symbol name).value = some existing →
      ¬(s.symbol existing).isDeclaration = true) ∧
    s.reserve name = (s.modifySymbol name ({ · with reserved := true })).bind
      (s.symbol name).value name := by
  unfold State.reserve at h ⊢
  dsimp only at h ⊢
  cases hlocal : s.local? (s.symbol name).value with
  | none => exact .inr ⟨nofun, rfl⟩
  | some existing =>
    rw [hlocal] at h
    dsimp only at h ⊢
    split at h
    · rename_i hreserved
      exact .inl (if_pos hreserved)
    · rename_i hreserved
      split at h
      · exact absurd h (not_clean_report s name _)
      · rename_i hkind
        rw [if_neg hreserved, if_neg hkind]
        refine .inr ⟨?_, rfl⟩
        rintro _ ⟨⟩ hdeclared
        exact hkind (beq_iff_eq.1 (Bool.and_eq_true_iff.1 hdeclared).1)

theorem forward_of_completesForward {existing : SymbolId}
    (h : s.completesForward existing type = true) :
    s.Forward existing ∧ s.isStructKeyword type = true := by
  obtain ⟨h, htype⟩ := Bool.and_eq_true_iff.1 h
  obtain ⟨h, halias⟩ := Bool.and_eq_true_iff.1 h
  obtain ⟨hstruct, hbody⟩ := Bool.and_eq_true_iff.1 h
  exact ⟨⟨hstruct, Bool.not_eq_true' _ ▸ halias, Option.isNone_iff_eq_none.1 hbody⟩, htype⟩

/-- What the open scope is like while declarations are read into it: none of its entries is a struct
that is open. -/
structure Orderly (O : SymbolId → Prop) (s : State) : Prop where
  poised : s.Poised cStructs
  keyed : s.Keyed
  scope_lt : s.scope < s.scopes.size
  closed : ∀ name id, s.local? name = some id → ¬O id
  opened : ∀ id, O id → (s.symbol id).isDeclaration = true

/-- What is defined without a warning takes the place of nothing, or of a forward declaration. -/
theorem settled_define (hs : s.Settled O) (h : s.Orderly O) (hlt : name < s.symbols.size)
    (hfresh : s.Undeclared name) (hclean : (s.define name type).Clean)
    (hle : ∀ id, O id → O' id)
    (hopen : s.declaresStruct name = true → s.isStructKeyword type = true → O' name) :
    (s.define name type).Settled O' := by
  obtain ⟨hforward, heq⟩ := define_of_clean hclean
  have hsymbol : ((s.declare name type).bind (s.symbol name).value name).symbol name =
      s.declaredAs (s.symbol name) { declaredType := type } := symbol_declare hlt
  have henters : s.Enters ((s.declare name type).bind (s.symbol name).value name) name := by
    apply enters_bind hfresh h.scope_lt
    · exact fun id hne => symbol_modifySymbol_of_ne hne
    · exact (congrArg Symbol.value hsymbol :)
    · exact (congrArg Symbol.scope? hsymbol :)
    · rfl
    · rfl
  rw [heq]
  apply henters.settled hs hle h.closed
  intro existing hlocal
  obtain ⟨hahead, htype⟩ := forward_of_completesForward (hforward existing hlocal)
  refine ⟨hahead, ?_, hopen ?_ htype⟩
  · rw [State.isStruct, hsymbol]
    exact henters.spelled type htype
  · rw [State.declaresStruct, hlocal]
    exact hahead.struct

/-- What has been defined is the entry of the open scope. -/
theorem entry_define (hlt : name < s.symbols.size) (hopen : s.scope < s.scopes.size)
    (type : SymbolId) :
    ((s.define name type).symbol name).isDeclaration = true ∧
    ((s.define name type).symbol name).scope? = some s.scope ∧
    ((s.define name type).scopeAt s.scope).get? ((s.define name type).symbol name).value =
      some name := by
  obtain ⟨ds, heq⟩ := define_eq s name type
  have hsymbol : (s.define name type).symbol name =
      s.declaredAs (s.symbol name) { declaredType := type } := by
    rw [heq]
    exact symbol_declare (s := { s with diagnostics := ds }) hlt
  rw [hsymbol]
  refine ⟨rfl, rfl, ?_⟩
  have hscope : ((s.define name type).scopeAt s.scope) =
      (s.scopeAt s.scope).insert (s.symbol name).value name := by
    rw [heq, scopeAt_bind, if_pos ⟨rfl, hopen⟩]
    rfl
  show ((s.define name type).scopeAt s.scope).get? (s.symbol name).value = some name
  rw [hscope, Scope.get?, Scope.insert, Dictionary.get?_insert, if_pos rfl]

/-- A typedef name that is given without a warning is free. -/
theorem settled_defineAlias (hs : s.Settled O) (h : s.Orderly O) (hlt : name < s.symbols.size)
    (hfresh : s.Undeclared name) (hclean : (s.defineAlias name type tag).Clean) :
    (s.defineAlias name type tag).Settled O := by
  obtain ⟨hfree, heq⟩ := defineAlias_of_clean hclean
  have hsymbol : ((s.declare name type).modifyDeclaration name ({ · with isAlias := true })).symbol
      name = s.declaredAs (s.symbol name) { declaredType := type, isAlias := true } := by
    rw [State.modifyDeclaration, symbol_modifySymbol_self, symbol_declare hlt]
    · rfl
    · rw [State.declare, State.modifySymbol, Array.size_modify]
      exact hlt
  have henters : s.Enters (((s.declare name type).modifyDeclaration name
      ({ · with isAlias := true })).bind (s.symbol name).value name) name := by
    apply enters_bind hfresh h.scope_lt
    · intro id hne
      rw [State.modifyDeclaration, symbol_modifySymbol_of_ne hne, State.declare,
        symbol_modifySymbol_of_ne hne]
    · exact (congrArg Symbol.value hsymbol :)
    · exact (congrArg Symbol.scope? hsymbol :)
    · rfl
    · rfl
  rw [heq]
  have htie := carries_modifyDeclaration (((s.declare name type).modifyDeclaration name
    ({ · with isAlias := true })).bind (s.symbol name).value name) tag
    (f := ({ · with alias? := some name })) (fun _ => rfl) (fun _ => rfl) fun _ => rfl
  apply htie.settled
  apply henters.settled hs (fun _ hid => hid) h.closed
  intro existing hlocal
  rw [hfree] at hlocal
  cases hlocal

theorem carries_reserve (hname : s.Undeclared name) (hclean : (s.reserve name).Clean) :
    s.Carries (s.reserve name) := by
  rcases reserve_of_clean hclean with heq | ⟨hfree, heq⟩
  · rw [heq]
    exact carries_of_eq rfl rfl
  · rw [heq]
    have hmark : s.Carries (s.modifySymbol name ({ · with reserved := true })) :=
      carries_modifySymbol hname (fun _ => rfl) fun _ => rfl
    apply hmark.trans
    apply carries_bind
    exact fun other hlocal hother => hfree other hlocal (hmark.declared other hother)

end State

/-! ## Steps -/

variable {s s' : State} {O : SymbolId → Prop}

theorem ExpressionStep.grows {t : SymbolTable} (h : ExpressionStep t s s') : s.Grows s' := by
  cases h with
  | advance => exact grows_advance t s
  | report id problem => exact grows_report s id problem
  | @reserve keyword => exact grows_reserve s keyword
  | operand => exact grows_modifySymbol s _ _
  | operands => exact grows_modifySymbol s _ _

theorem Step.grows {t : SymbolTable} (h : Step t s s') : s.Grows s' := by
  cases h with
  | expression h => exact h.grows
  | keyword => exact grows_modifySymbol s _ _
  | @member keyword => exact (grows_define s _ keyword).trans (grows_advance t _)
  | dimension => exact grows_modifySymbol s _ _
  | forward keyword => exact grows_define s _ keyword
  | typedef keyword body =>
    exact ((grows_define s _ keyword).trans (grows_setBody _ _ body)).trans (grows_advance t _)
  | @aliased tag keyword => exact (grows_defineAlias s _ keyword tag).trans (grows_advance t _)

theorem grows_leaveBody (t : SymbolTable) (s : State) (tag? : Option SymbolId) (body : ScopeId) :
    s.Grows (s.leaveBody t tag? body) := by
  have hclose := (grows_closeScope s).trans (grows_expect t closeBrace _)
  unfold State.leaveBody
  cases tag? with
  | none => exact hclose
  | some tag => exact hclose.trans (grows_setBody _ tag body)

theorem grows_openBrace (t : SymbolTable) (s : State) (keyword : SymbolId)
    (tag? : Option SymbolId) :
    (tag?.elim s fun tag => s.define tag keyword).Grows (s.enterBody t keyword tag?) :=
  (grows_expect t openBrace _).trans (grows_openScope _)

theorem grows_enterBody (t : SymbolTable) (s : State) (keyword : SymbolId)
    (tag? : Option SymbolId) : s.Grows (s.enterBody t keyword tag?) :=
  (grows_define? s keyword tag?).trans (grows_openBrace t s keyword tag?)

theorem Run.grows {t : SymbolTable} (h : Run t s s') : s.Grows s' := by
  induction h with
  | refl => exact .refl _
  | step _ hstep ih => exact ih.trans hstep.grows
  | block keyword _ _ _ ih ihbody =>
    exact ((ih.trans (grows_enterBody t _ keyword _)).trans ihbody).trans (grows_leaveBody t _ _ _)

theorem ExpressionStep.carries {t : SymbolTable} (h : ExpressionStep t s s') (hclean : s'.Clean) :
    s.Carries s' := by
  cases h with
  | advance => exact carries_advance t s
  | report => exact carries_of_eq rfl rfl
  | reserve hpassed => exact carries_reserve hpassed.undeclared hclean
  | operand o hpassed => exact carries_modifySymbol hpassed.undeclared (fun _ => rfl) fun _ => rfl
  | operands l r hpassed =>
    exact carries_modifySymbol hpassed.undeclared (fun _ => rfl) fun _ => rfl

theorem Step.settled (h : Step cStructs s s') (hs : s.Settled O) (ho : s.Orderly O)
    (hclean : s'.Clean) : s'.Settled O := by
  cases h with
  | expression h => exact (h.carries hclean).settled hs
  | keyword hpassed =>
    apply Carries.settled _ hs
    exact carries_modifySymbol hpassed.undeclared (fun _ => rfl) fun _ => rfl
  | @member keyword hname hmember =>
    have hplain := (ho.poised.plain_name hname).2
    -- a member is no struct, so it completes no forward declaration
    have hdefine : (s.define s.token keyword).Settled O := by
      apply settled_define hs ho hplain.lt ho.poised.undeclared
        ((grows_advance _ _).clean hclean) (fun _ hid => hid)
      exact fun _ htype => absurd (beq_iff_eq.1 htype) (ho.keyed.member keyword hmember)
    exact (carries_advance _ _).settled hdefine
  | @dimension name length =>
    apply Carries.settled _ hs
    exact carries_modifyDeclaration s name (fun _ => rfl) (fun _ => rfl) fun _ => rfl
  | forward keyword htag hnew =>
    apply settled_define hs ho (Nat.lt_trans htag.lt ho.poised.sound.token_lt) htag.undeclared
      hclean (fun _ hid => hid)
    intro hstruct
    rw [hnew] at hstruct
    cases hstruct
  | typedef keyword body hname =>
    obtain ⟨-, hplain⟩ := ho.poised.plain_name hname
    have hclean := ((grows_setBody _ s.token body).trans (grows_advance cStructs _)).clean hclean
    -- the name may complete a forward declaration, as it gets its body at once
    have hdefine : (s.define s.token keyword).Settled fun id => O id ∨ id = s.token :=
      settled_define hs ho hplain.lt ho.poised.undeclared hclean (fun _ => .inl) fun _ _ => .inr rfl
    obtain ⟨hdeclared, hscope, hentry⟩ := entry_define hplain.lt ho.scope_lt keyword
    have hbody := settled_setBody hdefine hdeclared ⟨s.scope, hscope, hentry⟩ body
    exact (carries_advance _ _).settled hbody
  | @aliased tag keyword hname =>
    have hplain := (ho.poised.plain_name hname).2
    have halias := settled_defineAlias hs ho hplain.lt ho.poised.undeclared
      ((grows_advance _ _).clean hclean)
    exact (carries_advance _ _).settled halias

/-! ## Runs -/

theorem State.Orderly.run (h : s.Orderly O) (hrun : Run cStructs s s') : s'.Orderly O := by
  have hframe := hrun.scopeFrame h.poised h.scope_lt
  refine ⟨(h.poised.run hrun).poised,
    (hrun.changes h.poised).keyed h.keyed, hframe.scope_lt h.scope_lt, ?_, ?_⟩
  · -- a new entry was not declared before, but what is open was
    intro name id hlocal hid
    rcases hframe.entry name id hlocal with hold | hnew
    · exact h.closed name id hold hid
    · exact hnew (h.opened id hid)
  · exact fun id hid => (hframe.lasts id (h.opened id hid)).declared

section Blocks

variable {keyword : SymbolId} {tag? : Option SymbolId}

/-- In its body, the tag of a struct is open. -/
theorem State.Orderly.enterBody (h : s.Orderly O) (keyword : SymbolId)
    (htag : ∀ tag ∈ tag?, s.Passed tag) :
    (s.enterBody cStructs keyword tag?).Orderly fun id => O id ∨ id ∈ tag? := by
  have hframe := scopeFrame_tag cStructs keyword fun tag hmem => (htag tag hmem).undeclared
  refine ⟨(h.poised.enterBody keyword htag).poised,
    (changes_enterBody h.poised keyword htag).keyed h.keyed, scope_lt_openScope _, ?_, ?_⟩
  · intro name id hlocal
    rw [State.enterBody, local?_openScope] at hlocal
    cases hlocal
  · intro id hid
    rcases hid with hid | rfl
    · exact (hframe.lasts id (h.opened id hid)).declared
    · have hlt := Nat.lt_trans (htag id rfl).lt h.poised.sound.token_lt
      have hdeclared := (entry_define hlt h.scope_lt keyword).1
      have hbrace := (carries_expect cStructs openBrace (s.define id keyword)).trans
        (carries_openScope _)
      exact (hbrace.lasts id hdeclared).declared

theorem settled_enterBody (hs : s.Settled O) (h : s.Orderly O)
    (htag : ∀ tag ∈ tag?, s.Passed tag) (hclean : (s.enterBody cStructs keyword tag?).Clean) :
    (s.enterBody cStructs keyword tag?).Settled fun id => O id ∨ id ∈ tag? := by
  apply ((carries_expect cStructs openBrace _).trans (carries_openScope _)).settled
  cases tag? with
  | none => exact hs.mono fun _ => .inl
  | some tag =>
    have hdefine : (s.define tag keyword).Clean :=
      (grows_openBrace cStructs s keyword (some tag)).clean hclean
    exact settled_define hs h (Nat.lt_trans (htag tag rfl).lt h.poised.sound.token_lt)
      (htag tag rfl).undeclared hdefine (fun _ => .inl) fun _ _ => .inr rfl

theorem scopes_expect (t : SymbolTable) (id : String) (s : State) :
    (s.expect t id).scopes = s.scopes := by
  unfold State.expect
  split <;> exact scopes_advance

/-- Behind its body, the tag of a struct still stands in its scope, and it gets the body. -/
theorem settled_leaveBody (h : s.Orderly O) (htag : ∀ tag ∈ tag?, s.Passed tag)
    (hbody : Run cStructs (s.enterBody cStructs keyword tag?) s')
    (hs : s'.Settled fun id => O id ∨ id ∈ tag?) (body : ScopeId) :
    (s'.leaveBody cStructs tag? body).Settled O := by
  have hclosed := ((carries_closeScope s').trans (carries_expect cStructs closeBrace _)).settled hs
  unfold State.leaveBody
  cases tag? with
  | none => exact hclosed.mono fun _ hid => hid.resolve_right nofun
  | some tag =>
    have hlt := Nat.lt_trans (htag tag rfl).lt h.poised.sound.token_lt
    obtain ⟨hdeclared, hscope, hentry⟩ := entry_define hlt h.scope_lt keyword
    have hbrace := scopeFrame_expect cStructs openBrace (s.define tag keyword)
    have hframe := scopeFrame_tag cStructs keyword fun tag hmem => (htag tag hmem).undeclared
    have hopen := hframe.scope_lt h.scope_lt
    have hinside := hbody.scopeFrame
      (h.poised.enterBody keyword htag).poised (scope_lt_openScope _)
    obtain ⟨hblock, hscopes⟩ := scopeFrame_block hopen hinside
    have hlasts := ((hbrace.trans hblock).trans
      (scopeFrame_expect cStructs closeBrace _)).lasts tag hdeclared
    -- the body is read in a scope of its own, so the scope of the tag is as it was
    have hplace : (s'.closeScope.expect cStructs closeBrace).scopeAt s.scope =
        (s.define tag keyword).scopeAt s.scope := by
      rw [State.scopeAt, scopes_expect]
      refine (hscopes s.scope (hframe.scope ▸ hopen)).trans ?_
      rw [State.scopeAt, Option.elim, scopes_expect]
      rfl
    refine settled_setBody (hclosed.mono fun id hid => hid.imp_right fun hmem => ?_)
      hlasts.declared ⟨s.scope, hlasts.scope?.trans hscope, ?_⟩ body
    · exact (Option.some.inj hmem).symm
    · rw [hplace, hlasts.value]
      exact hentry

end Blocks

/-- A run that reports nothing keeps the declarations settled. -/
theorem Run.settled (h : Run cStructs s s') (hs : s.Settled O) (ho : s.Orderly O)
    (hclean : s'.Clean) : s'.Settled O := by
  induction h generalizing O with
  | refl => exact hs
  | step hrun hstep ih =>
    have hs₁ := ih hs ho (hstep.grows.clean hclean)
    exact hstep.settled hs₁ (ho.run hrun) hclean
  | block keyword hrun htag hbody ih ihbody =>
    have hclean₂ := (grows_leaveBody _ _ _ _).clean hclean
    have hclean₁ := hbody.grows.clean hclean₂
    have ho₁ := ho.run hrun
    have hs₁ := ih hs ho ((grows_enterBody _ _ _ _).clean hclean₁)
    have hs₂ := settled_enterBody hs₁ ho₁ htag hclean₁
    have hinside := ihbody hs₂ (ho₁.enterBody keyword htag) hclean₂
    exact settled_leaveBody ho₁ htag hbody hinside _

/-! ## Whole sources -/

theorem orderly_ofLexemes (lexemes : List Lexeme) (endPosition : Position) :
    ((State.ofLexemes lexemes endPosition).advance cStructs).Orderly fun _ => False := by
  refine ⟨poised_ofLexemes cStructs lexemes endPosition,
    (keyed_ofLexemes lexemes endPosition).advance, ?_, fun _ _ _ => id, nofun⟩
  rw [scope_advance.1, scopes_advance]
  exact Nat.zero_lt_one

theorem settled_ofLexemes (lexemes : List Lexeme) (endPosition : Position) :
    ((State.ofLexemes lexemes endPosition).advance cStructs).Settled O := by
  apply (carries_advance cStructs (State.ofLexemes lexemes endPosition)).settled
  exact fun id hid => absurd (lt_of_isDeclaration hid) (Nat.not_lt_zero id)

end CStruct.Parse

namespace CStruct.TranslationUnit

open SymbolTable Parse.State

/-- The symbol that stands in the scope of a symbol under its spelling. -/
def holder? (u : TranslationUnit) (id : SymbolId) : Option SymbolId :=
  (u.symbol id).scope?.bind fun scope => (u.scope scope).get? (u.symbol id).value

theorem isStruct_ofState {names : List SymbolId} {s : Parse.State} {id : SymbolId}
    (h : s.isStruct id = true) : (ofState names s).isStruct id = true := by
  obtain ⟨-, htype⟩ := Bool.and_eq_true_iff.1 h
  show (((s.symbol id).declaredType?.map fun type => (s.symbol type).value) ==
    some structKeyword) = true
  cases hdeclared : (s.symbol id).declaredType? with
  | none =>
    rw [hdeclared] at htype
    cases htype
  | some type =>
    rw [hdeclared, Option.any_some] at htype
    rw [Option.map_some, beq_iff_eq.1 htype]
    exact beq_self_eq_true _

/-- No declaration is lost silently: where a source is read without a remark, each declared name is
the entry of its scope under its spelling, or it declares a struct ahead of its body, and the struct
of that name that has a body has taken its place. -/
theorem declarations_ofSource (source : String) (id : SymbolId)
    (h : (ofSource source).diagnostics.toList = [])
    (hid : ((ofSource source).symbol id).isDeclaration = true) :
    (ofSource source).holder? id = some id ∨
    (ofSource source).isStruct id = true ∧ ((ofSource source).symbol id).isAlias = false ∧
      ((ofSource source).symbol id).innerScope? = none ∧
      ∃ other, (ofSource source).holder? id = some other ∧
        ((ofSource source).symbol other).isDeclaration = true ∧
        (ofSource source).isStruct other = true ∧
        ((ofSource source).symbol other).value = ((ofSource source).symbol id).value ∧
        ((ofSource source).symbol other).innerScope?.isSome = true := by
  obtain ⟨names, s', hs', hrun, -⟩ := Parse.run_ofLexemes ends_cStructs
    (Lexicon.lexemes source).1 (Lexicon.lexemes source).2.position
  have hunit : ofSource source = ofState names s' := Option.get_of_eq_some _ hs'
  rw [hunit] at h hid ⊢
  have hholder {scope : ScopeId} (hscope : (s'.symbol id).scope? = some scope) :
      (ofState names s').holder? id = (s'.scopeAt scope).get? (s'.symbol id).value := by
    show ((s'.symbol id).scope?.bind _) = _
    rw [hscope]
    rfl
  have hsettled := hrun.settled (Parse.settled_ofLexemes _ _) (Parse.orderly_ofLexemes _ _) h
  rcases hsettled id hid with ⟨scope, hscope, hentry⟩ | ⟨hforward, scope, other, hscope, hentry,
    hstruct, hvalue, hbody⟩
  · left
    rw [hholder hscope]
    exact hentry
  · right
    refine ⟨isStruct_ofState hforward.struct, hforward.isAlias, hforward.innerScope?, other, ?_,
      isDeclaration_of_isStruct hstruct, isStruct_ofState hstruct, hvalue, ?_⟩
    · rw [hholder hscope]
      exact hentry
    · -- at the end, no struct is open
      exact hbody.resolve_right not_false

theorem declarations_of_forward_struct :
    (ofSource "struct a; struct a \x7b int x; \x7d;").diagnostics.toList = [] ∧
    ((ofSource "struct a; struct a \x7b int x; \x7d;").symbol 1).isDeclaration = true ∧
    (ofSource "struct a; struct a \x7b int x; \x7d;").holder? 1 = some 4 ∧
    (ofSource "struct a; struct a \x7b int x; \x7d;").isStruct 1 = true ∧
    ((ofSource "struct a; struct a \x7b int x; \x7d;").symbol 1).innerScope? = none ∧
    ((ofSource "struct a; struct a \x7b int x; \x7d;").symbol 4).innerScope?.isSome = true := by
  obtain ⟨hclean, hdeclared, hentry⟩ :
      (ofSource "struct a; struct a \x7b int x; \x7d;").diagnostics.toList = [] ∧
      ((ofSource "struct a; struct a \x7b int x; \x7d;").symbol 1).isDeclaration = true ∧
      (ofSource "struct a; struct a \x7b int x; \x7d;").holder? 1 = some 4 := by
    decide +kernel
  rcases declarations_ofSource _ 1 hclean hdeclared with hstands | ⟨hstruct, -, hbody, other, hother,
    -, -, -, hsome⟩
  · rw [hentry] at hstands
    cases hstands
  · rw [hentry] at hother
    cases hother
    exact ⟨hclean, hdeclared, hentry, hstruct, hbody, hsome⟩

end CStruct.TranslationUnit
