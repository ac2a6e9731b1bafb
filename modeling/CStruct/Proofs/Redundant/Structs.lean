import CStruct.Proofs.Redundant.Parts

/-!
# Structs in both readings

A struct that is read without a remark in the first reading is read in the second as well. Outside
all other structs it may be `n` itself, and then its definition takes the place of what was put in.
-/

namespace CStruct.Parse

open SymbolTable State

variable {k : Nat} {n : String} {s s' s₁ s₁' s₂ : State} {id name keyword tag : SymbolId}
  {tag? : Option SymbolId} {body : ScopeId}

/-- An entry of a scope may change, but it does not go away. -/
theorem Trace.isSome_entry {t : SymbolTable} (h : Trace t s s₁) {c : ScopeId} {name : String}
    (hentry : ((s.scopeAt c).get? name).isSome = true) :
    ((s₁.scopeAt c).get? name).isSome = true := by
  induction h with
  | refl => exact hentry
  | step _ hmove ih =>
    have hentry := ih hentry
    cases hmove with
    | advance =>
      rw [State.scopeAt, scopes_advance]
      exact hentry
    | report => exact hentry
    | edit => exact hentry
    | declare => exact hentry
    | bind other id =>
      rw [scopeAt_bind]
      split
      · rw [Scope.get?, Scope.insert, Dictionary.get?_insert]
        split
        · rfl
        · exact hentry
      · exact hentry
  | @block _ s₂ s₃ _ _ ih ihbody =>
    have hinside : ((s₃.scopeAt c).get? name).isSome = true := by
      apply ihbody
      rw [scopeAt_openScope, if_neg]
      · exact ih hentry
      -- the new scope has had no place before, so it could not hold the entry
      · rintro rfl
        have hnone := ih hentry
        rw [State.scopeAt, Array.getD_eq_getD_getElem?,
          Array.getElem?_eq_none (Nat.le_refl _)] at hnone
        cases hnone
    unfold State.closeScope
    split <;> exact hinside

namespace State

theorem AtRoot.of_trace {t : SymbolTable} (h : s.AtRoot keyword) (htrace : Trace t s s₁) :
    s₁.AtRoot keyword where
  struct := by
    rw [isStructKeyword, htrace.value (isStructKeyword_lt h.struct)]
    exact h.struct
  keyword := htrace.isSome_entry h.keyword

theorem AtRoot.openScope (h : s.AtRoot keyword) (hpos : 0 < s.scopes.size) :
    s.openScope.AtRoot keyword where
  struct := h.struct
  keyword := by
    rw [scopeAt_openScope, if_neg (Nat.ne_of_lt hpos)]
    exact h.keyword

/-! ## Scopes -/

namespace Tracks

theorem openScope (h : Tracks k n s s') : Tracks k n s.openScope s'.openScope := by
  have hpos : 0 < s.scopes.size := Nat.zero_lt_of_lt h.scope_lt
  have hscope (c : ScopeId) : s.openScope.scopeAt c =
      if c = s.scopes.size then { parent? := some s.scope } else s.scopeAt c :=
    scopeAt_openScope s c
  have hscope' (c : ScopeId) : s'.openScope.scopeAt c =
      if c = s.scopes.size then { parent? := some s'.scope } else s'.scopeAt c := by
    rw [scopeAt_openScope, h.scopes]
  have hinward : s.Inward s.openScope := ⟨rfl, by rw [hscope, if_neg (Nat.ne_of_lt hpos)]⟩
  have hinward' : s'.Inward s'.openScope := ⟨rfl, by rw [hscope', if_neg (Nat.ne_of_lt hpos)]⟩
  refine
    { phase := h.phase.of_eq rfl rfl rfl rfl rfl rfl
      clean := h.clean
      scope := h.scopes
      outer := ?outer
      scopes := ?scopes
      scope_lt := scope_lt_openScope s
      chain := ?chain
      sensible := ⟨?bound, h.sensible.typical⟩
      similar := h.similar
      order := ?order
      same := ?same
      keywords := hinward.keywords hinward' h.keywords
      own := hinward.own hinward' h.own }
  case outer =>
    show s'.scope :: s'.outer = s.scope :: s.outer
    rw [h.scope, h.outer]
  case scopes =>
    rw [State.openScope, State.openScope, Array.size_push, Array.size_push, h.scopes]
  -- the root is not the scope that has just been opened
  case chain =>
    obtain ⟨inner, hchain, hinner⟩ := h.chain
    refine ⟨s.scopes.size :: inner, congrArg (s.scopes.size :: ·) hchain, fun hmem => ?_⟩
    rcases List.mem_cons.1 hmem with hzero | hmem
    · exact Nat.ne_of_lt hpos hzero
    · exact hinner hmem
  case bound =>
    intro c name id hid
    rw [hscope] at hid
    split at hid
    · cases hid
    · exact h.sensible.bound c name id hid
  case order =>
    intro c hc
    rw [hscope, hscope']
    split
    · rfl
    · exact h.order c hc
  -- the new scope is empty on both sides, and all others are as they were
  case same =>
    intro c name hname
    refine ⟨?_, fun id hid => ?_⟩
    · rw [hscope, hscope']
      split
      · rfl
      · exact (h.same c name hname).entry
    · rw [hscope] at hid
      split at hid
      · cases hid
      · exact (h.same c name hname).matching id hid

/-- Behind a body, the scope around it is open again. -/
theorem closeScope (h : Tracks k n s s') {c : ScopeId} {outer : List ScopeId}
    (houter : s.outer = c :: outer) (hlt : c < s.scopes.size) :
    Tracks k n s.closeScope s'.closeScope := by
  have heq : s.closeScope = { s with scope := c, outer } := by
    unfold State.closeScope
    rw [houter]
  have heq' : s'.closeScope = { s' with scope := c, outer } := by
    unfold State.closeScope
    rw [h.outer, houter]
  have hinward : s.Inward { s with scope := c, outer } := ⟨rfl, rfl⟩
  have hinward' : s'.Inward { s' with scope := c, outer } := ⟨rfl, rfl⟩
  rw [heq, heq']
  refine
    { phase := h.phase.of_eq rfl rfl rfl rfl rfl rfl
      clean := h.clean
      scope := rfl
      outer := rfl
      scopes := h.scopes
      scope_lt := hlt
      chain := ?chain
      sensible := ⟨h.sensible.bound, h.sensible.typical⟩
      similar := h.similar
      order := h.order
      same := fun c name hname => ⟨(h.same c name hname).entry, (h.same c name hname).matching⟩
      keywords := hinward.keywords hinward' h.keywords
      own := hinward.own hinward' h.own }
  case chain =>
    obtain ⟨inner, hchain, hinner⟩ := h.chain
    rw [houter] at hchain
    -- the scope around the body is the first of those that are open now
    cases inner with
    | nil => exact absurd (List.cons.inj hchain).2 (List.cons_ne_nil _ _)
    | cons _ inner =>
      exact ⟨inner, (List.cons.inj hchain).2, fun hmem => hinner (List.mem_cons_of_mem _ hmem)⟩

end Tracks

namespace Abreast

theorem openScope (h : Abreast k n s s') : Abreast k n s.openScope s'.openScope :=
  h.aside h.toTracks.openScope (.openScope (P := fun _ => False) s)
    (.openScope (P := fun _ => False) s') id id

theorem closeScope (h : Abreast k n s s') {c : ScopeId} {outer : List ScopeId}
    (houter : s.outer = c :: outer) (hlt : c < s.scopes.size) :
    Abreast k n s.closeScope s'.closeScope :=
  h.aside (h.toTracks.closeScope houter hlt) (.closeScope (P := fun _ => False) s)
    (.closeScope (P := fun _ => False) s') (fun h => h) fun h => h

end Abreast

/-! ## Forward declarations -/

theorem declaresStruct_eq (s : State) (tag : SymbolId) :
    s.declaresStruct tag = (s.local? (s.symbol tag).value).any s.isStruct := rfl

namespace Tracks

/-- A name declares a struct in both readings, if what it stands for is the same. -/
theorem declaresStruct (h : Tracks k n s s')
    (hsame : SameEntry k s s' s.scope (s.symbol tag).value) :
    s'.declaresStruct (moved k tag) = s.declaresStruct tag := by
  rw [declaresStruct_eq, declaresStruct_eq, local?, local?, h.scope, h.value, hsame.entry]
  cases hid : (s.scopeAt s.scope).get? (s.symbol tag).value with
  | none => rfl
  | some id => exact h.isStruct (hsame.matching id hid)

/-- Where the name stands for the same in both readings, both declare it or neither does. -/
theorem forwardDeclaration_of_same (h : Tracks k n s s')
    (hsame : SameEntry k s s' s.scope (s.symbol tag).value) (htag : Spare k s s' tag)
    (hkind : (s.symbol tag).kind = .name) (hroot : s.scope = 0 → s.AtRoot keyword)
    (hclean : (forwardDeclaration keyword (some tag) s).2.Clean) :
    Tracks k n (forwardDeclaration keyword (some tag) s).2
      (forwardDeclaration (moved k keyword) (some (moved k tag)) s').2 := by
  unfold Parse.forwardDeclaration at hclean ⊢
  dsimp only at hclean ⊢
  rw [h.declaresStruct hsame]
  split at hclean
  · rename_i hdeclares
    rw [if_pos hdeclares, if_pos hdeclares]
    exact h
  · rename_i hdeclares
    rw [if_neg hdeclares, if_neg hdeclares]
    exact h.define htag hkind hroot hclean

/-- Where `n` has been put in, only the first reading may still have to declare it. -/
theorem forwardDeclaration_of_put (hget : cStructs.get? n = none) (h : Tracks k n s s')
    (htag : Spare k s s' tag) (hkind : (s.symbol tag).kind = .name)
    (hvalue : (s.symbol tag).value = n) (hscope : s.scope = 0) (hroot : s.AtRoot keyword)
    (hput : (s'.scopeAt 0).get? n = some (k + 1)) (hahead' : s'.Ahead (k + 1))
    (haheads : ∀ id, (s.scopeAt 0).get? n = some id → s.Ahead id) :
    Tracks k n (forwardDeclaration keyword (some tag) s).2
      (forwardDeclaration (moved k keyword) (some (moved k tag)) s').2 := by
  have hdeclares' : s'.declaresStruct (moved k tag) = true := by
    rw [declaresStruct_eq, local?, h.scope, hscope, h.value, hvalue, hput]
    exact hahead'.forward.struct
  unfold Parse.forwardDeclaration
  dsimp only
  rw [if_pos hdeclares']
  cases hleft : (s.scopeAt 0).get? n with
  | none =>
    have hdeclares : s.declaresStruct tag = false := by
      rw [declaresStruct_eq, local?, hscope, hvalue, hleft]
      rfl
    rw [hdeclares, if_neg Bool.false_ne_true]
    exact h.define_left hget (ne_structKeyword hget) hscope htag hkind hvalue hroot.struct hleft hput
      hahead'
  | some id =>
    have hdeclares : s.declaresStruct tag = true := by
      rw [declaresStruct_eq, local?, hscope, hvalue, hleft]
      exact (haheads id hleft).forward.struct
    rw [hdeclares, if_pos rfl]
    exact h

/-- In the outermost scope, `struct` itself is reserved and cannot be declared without a remark. -/
theorem value_ne_of_forwardDeclaration (h : Tracks k n s s') (hroot : s.AtRoot keyword)
    (hscope : s.scope = 0) (hclean : (forwardDeclaration keyword (some tag) s).2.Clean) :
    (s.symbol tag).value ≠ structKeyword := by
  intro hstruct
  obtain ⟨id, hid⟩ := Option.isSome_iff_exists.1 hroot.keyword
  have hdeclares : s.declaresStruct tag = false := by
    rw [declaresStruct_eq, local?, hscope, hstruct, hid]
    exact Bool.eq_false_iff.2 (not_isStruct_of_undeclared (h.keywords.left id hid).undeclared)
  unfold Parse.forwardDeclaration at hclean
  dsimp only at hclean
  rw [hdeclares, if_neg Bool.false_ne_true] at hclean
  exact h.value_ne_struct hroot hscope (define_of_clean hclean).1 hstruct

/-- A forward declaration ends in both readings. Only the first one needs it where `n` has been put
in. -/
theorem forwardDeclaration (hget : cStructs.get? n = none) (h : Tracks k n s s')
    (htag : Spare k s s' tag) (hkind : (s.symbol tag).kind = .name)
    (hroot : s.scope = 0 → s.AtRoot keyword)
    (hclean : (forwardDeclaration keyword (some tag) s).2.Clean) :
    Tracks k n (forwardDeclaration keyword (some tag) s).2
      (Parse.forwardDeclaration (moved k keyword) (some (moved k tag)) s').2 := by
  have hof (hsame : SameEntry k s s' s.scope (s.symbol tag).value) :=
    h.forwardDeclaration_of_same hsame htag hkind hroot hclean
  by_cases hscope : s.scope = 0
  · by_cases hvalue : (s.symbol tag).value = n
    · rcases h.own with ⟨hown, -⟩ | ⟨hput, hahead', haheads⟩
      · exact hof (by rw [hscope, hvalue]; exact hown)
      · exact h.forwardDeclaration_of_put hget htag hkind hvalue hscope (hroot hscope) hput hahead'
          haheads
    · exact hof (h.same _ _ fun _ =>
        ⟨hvalue, h.value_ne_of_forwardDeclaration (hroot hscope) hscope hclean⟩)
  · exact hof (h.same _ _ fun hzero => absurd hzero hscope)

end Tracks

theorem Aside.forwardDeclaration (s : State) (keyword tag : SymbolId) :
    Aside (· = tag) s (forwardDeclaration keyword (some tag) s).2 := by
  unfold Parse.forwardDeclaration
  dsimp only
  split
  · exact .refl s
  · exact .define s tag keyword

/-! ## The end of a struct -/

/-- No typedef name of the outermost scope is spelled `n`. -/
def NoAlias (n : String) (s : State) : Prop :=
  ∀ id, (s.symbol id).isDeclaration = true → (s.symbol id).isAlias = true →
    (s.symbol id).value = n → (s.symbol id).scope? ≠ some 0

/-- What a typedef name is once it has been defined. -/
theorem symbol_defineAlias (hname : name < s.symbols.size) (hne : name ≠ tag)
    (hclean : (s.defineAlias name keyword tag).Clean) :
    (s.defineAlias name keyword tag).symbol name =
      s.declaredAs (s.symbol name) { declaredType := keyword, isAlias := true } := by
  rw [(defineAlias_of_clean hclean).2, State.modifyDeclaration, symbol_modifySymbol_of_ne hne]
  exact Upholds.symbol_declareAlias hname keyword

/-- A typedef name that has been defined and passed is there. -/
theorem NoAlias.value_ne (h : NoAlias n s₁) (hname : name < s.symbols.size) (hne : name ≠ tag)
    (hscope : s.scope = 0) (hclean : (s.defineAlias name keyword tag).Clean)
    (hsymbol : s₁.symbol name = (s.defineAlias name keyword tag).symbol name) :
    (s.symbol name).value ≠ n := by
  intro hvalue
  rw [symbol_defineAlias hname hne hclean] at hsymbol
  refine h name ?_ ?_ ?_ ?_
  · rw [hsymbol]
    rfl
  · rw [hsymbol]
    rfl
  · rw [hsymbol]
    exact hvalue
  · rw [hsymbol]
    exact congrArg some hscope

/-- A struct in whose body reading has come to the end, up to the semicolon. -/
def endName (t : SymbolTable) (keyword : SymbolId) (tag? : Option SymbolId) (body : ScopeId)
    (s : State) : State :=
  (typedefName t keyword tag? body (s.leaveBody t tag? body)).2

theorem trace_leaveBody (t : SymbolTable) (s : State) (tag? : Option SymbolId) (body : ScopeId) :
    Trace t s.closeScope (s.leaveBody t tag? body) :=
  (Trace.expect closeBrace s.closeScope).trans (.of_setBody? _ tag? body)

theorem trace_endName (t : SymbolTable) (s : State) (keyword : SymbolId) (tag? : Option SymbolId)
    (body : ScopeId) : Trace t s.closeScope (s.endName t keyword tag? body) :=
  (trace_leaveBody t s tag? body).trans (.of_typedefName t _ keyword tag? body)

theorem scope_leaveBody {t : SymbolTable} {c : ScopeId} {outer : List ScopeId}
    (houter : s.outer = c :: outer) : (s.leaveBody t tag? body).scope = c := by
  rw [(trace_leaveBody t s tag? body).within.scope]
  unfold State.closeScope
  rw [houter]

theorem AtRoot.leaveBody {t : SymbolTable} (h : s.AtRoot keyword) :
    (s.leaveBody t tag? body).AtRoot keyword := by
  have hclosed : s.closeScope.AtRoot keyword := by
    unfold State.closeScope
    split <;> exact ⟨h.struct, h.keyword⟩
  exact hclosed.of_trace (trace_leaveBody t s tag? body)

/-- A typedef name of a struct that is spelled `n` would be there to the end. -/
theorem NoAlias.current_ne {t : SymbolTable}
    (h : NoAlias n ((typedefName t keyword (some tag) body s).2.advance t))
    (hlt : s.token < s.symbols.size) (hne : s.token ≠ tag) (hkind : s.current.kind = .name)
    (hscope : s.scope = 0) (hclean : (typedefName t keyword (some tag) body s).2.Clean) :
    s.current.value ≠ n := by
  unfold Parse.typedefName at h hclean
  rw [if_pos hkind] at h hclean
  dsimp only at h hclean
  refine h.value_ne hlt hne hscope ((grows_advance _ _).clean hclean) ?_
  have hltAlias : s.token < (s.defineAlias s.token keyword tag).symbols.size := by
    rw [(Aside.defineAlias _ _ _ _).size]
    exact hlt
  rw [symbol_advance (Nat.lt_of_lt_of_le hltAlias size_le_advance), symbol_advance hltAlias]

theorem size_setBody (s : State) (tag : SymbolId) (body : ScopeId) :
    (s.setBody tag body).symbols.size = s.symbols.size := by
  rw [State.setBody, State.modifyDeclaration, State.modifySymbol, Array.size_modify]

/-- A struct without a name is remarked before its semicolon is passed. -/
theorem snd_structEnd (t : SymbolTable) (keyword : SymbolId) (tag? : Option SymbolId)
    (body : ScopeId) (s : State) : (structEnd t keyword tag? body s).2 =
      State.expect t ";" (if (typedefName t keyword tag? body (s.leaveBody t tag? body)).1.isNone
        then (s.endName t keyword tag? body).report keyword .anonymousStruct
        else s.endName t keyword tag? body) := by
  unfold structEnd endName State.leaveBody
  rfl

/-- A struct that ends without a remark has a name, and a semicolon behind it. -/
theorem structEnd_of_clean {t : SymbolTable} (h : (structEnd t keyword tag? body s).2.Clean) :
    (typedefName t keyword tag? body (s.leaveBody t tag? body)).1.isNone = false ∧
      (s.endName t keyword tag? body).check ";" = true ∧
      (structEnd t keyword tag? body s).2 = (s.endName t keyword tag? body).advance t := by
  rw [snd_structEnd] at h ⊢
  cases hnone : (typedefName t keyword tag? body (s.leaveBody t tag? body)).1.isNone with
  | true =>
    rw [hnone, if_pos rfl] at h
    exact absurd ((grows_expect _ _ _).clean h) (not_clean_report _ _ _)
  | false =>
    rw [hnone, if_neg Bool.false_ne_true] at h
    rw [if_neg Bool.false_ne_true]
    obtain ⟨hcheck, heq⟩ := expect_of_clean h
    exact ⟨rfl, hcheck, heq⟩

theorem structEnd_of_check {t : SymbolTable}
    (hname : (typedefName t keyword tag? body (s.leaveBody t tag? body)).1.isNone = false)
    (hcheck : (s.endName t keyword tag? body).check ";" = true) :
    (structEnd t keyword tag? body s).2 = (s.endName t keyword tag? body).advance t := by
  rw [snd_structEnd, hname, if_neg Bool.false_ne_true, expect_of_check hcheck]

section Ends

variable (hget : cStructs.get? n = none)
include hget

namespace Abreast

/-- The typedef name of a struct is read in both readings. -/
theorem typedefName (h : Abreast k n s s') (hroot : s.scope = 0 → s.AtRoot keyword)
    (htag : ∀ tag ∈ tag?, Held k n s s' tag ∧ tag < s.token)
    (hn : ∀ tag ∈ tag?, s.current.kind = .name → s.scope = 0 → s.current.value ≠ n)
    (hquiet : Quiet k s s' (typedefName cStructs keyword tag? body s).2)
    (hclean : (typedefName cStructs keyword tag? body s).2.Clean) :
    Abreast k n (Parse.typedefName cStructs keyword tag? body s).2
        (Parse.typedefName cStructs (moved k keyword) (tag?.map (moved k)) body s').2 ∧
      (Parse.typedefName cStructs (moved k keyword) (tag?.map (moved k)) body s').1.isNone =
        (Parse.typedefName cStructs keyword tag? body s).1.isNone := by
  unfold Parse.typedefName at hquiet hclean ⊢
  rw [h.current_similar.kind, h.token]
  by_cases hname : s.current.kind = .name
  · rw [if_pos hname] at hquiet hclean
    rw [if_pos hname, if_pos hname]
    have hend := h.not_end_of_name hname
    cases tag? with
    | some tag =>
      obtain ⟨hheld, hlt⟩ := htag tag rfl
      have halias := h.toTracks.defineAlias h.spare hname hheld (Nat.ne_of_gt hlt)
        (fun hscope => ⟨hroot hscope, hn tag rfl hname hscope⟩) ((grows_advance _ _).clean hclean)
      have hsize' := (Aside.defineAlias s' (moved k s.token) (moved k keyword) (moved k tag)).size
      exact ⟨halias.next hget ((endSymbol?_defineAlias _ _ _ _).trans hend)
        (hquiet.rest h.phase halias.phase (Nat.le_of_eq hsize'.symm)) hclean, rfl⟩
    | none =>
      have hcleanBody : ((s.define s.token keyword).setBody s.token body).Clean :=
        (grows_advance _ _).clean hclean
      have hcleanDefine := (grows_setBody _ _ _).clean hcleanBody
      have hdefine := h.toTracks.define h.spare hname hroot hcleanDefine
      have hbody := hdefine.setBody (h.toTracks.held_define h.spare hroot hcleanDefine) body
      have hsize' : ((s'.define (moved k s.token) (moved k keyword)).setBody (moved k s.token)
          body).symbols.size = s'.symbols.size :=
        (size_setBody _ _ _).trans (Aside.define s' (moved k s.token) (moved k keyword)).size
      exact ⟨hbody.next hget ((endSymbol?_define _ _ _).trans hend)
        (hquiet.rest h.phase hbody.phase (Nat.le_of_eq hsize'.symm)) hclean, rfl⟩
  · rw [if_neg hname, if_neg hname]
    exact ⟨h, by rw [Option.isNone_map]⟩

/-- The body of a struct is left in both readings. -/
theorem leaveBody (h : Abreast k n s s') {c : ScopeId} {outer : List ScopeId}
    (houter : s.outer = c :: outer) (hlt : c < s.scopes.size)
    (htag : ∀ tag ∈ tag?, Held k n s s' tag ∧ tag < s.token)
    (hquiet : Quiet k s s' (s.leaveBody cStructs tag? body))
    (hclean : (s.leaveBody cStructs tag? body).Clean) :
    Abreast k n (s.leaveBody cStructs tag? body)
        (s'.leaveBody cStructs (tag?.map (moved k)) body) ∧
      ∀ tag ∈ tag?, Held k n (s.leaveBody cStructs tag? body)
          (s'.leaveBody cStructs (tag?.map (moved k)) body) tag ∧
        tag < (s.leaveBody cStructs tag? body).token := by
  have hclose := h.closeScope houter hlt
  have hheld {tag : SymbolId} (hheld : Held k n s s' tag) :
      Held k n s.closeScope s'.closeScope tag := by
    refine hheld.of_scopeAt ?_ ?_ <;> (unfold State.closeScope; split <;> rfl)
  have htoken : s.closeScope.token = s.token := (Aside.closeScope (P := fun _ => False) s).token
  have hsize' : s'.closeScope.symbols.size = s'.symbols.size :=
    (Aside.closeScope (P := fun _ => False) s').size
  have hquietClose := hquiet.rest h.phase hclose.phase (Nat.le_of_eq hsize'.symm)
  unfold State.leaveBody at hquiet hquietClose hclean ⊢
  dsimp only at hquiet hquietClose hclean ⊢
  cases tag? with
  | none =>
    exact ⟨(hclose.expect hget (by decide) hquietClose hclean).1, nofun⟩
  | some tag =>
    obtain ⟨hheldTag, hltTag⟩ := htag tag rfl
    rw [Option.elim_some] at hquietClose hclean ⊢
    rw [Option.map_some, Option.elim_some]
    have hsize : ((s.closeScope.expect cStructs closeBrace).setBody tag body).symbols.size =
        (s.closeScope.expect cStructs closeBrace).symbols.size := size_setBody _ _ _
    obtain ⟨hbrace, hltBrace⟩ := hclose.expect hget (by decide)
      (hquietClose.first (Nat.le_of_eq hsize.symm)) ((grows_setBody _ _ _).clean hclean)
    have hheldBrace := (hheld hheldTag).expect closeBrace
    -- the tag stands before the token, so its change is seen by no reader
    have hlt : tag < (s.closeScope.expect cStructs closeBrace).token :=
      Nat.lt_trans (htoken.symm ▸ hltTag) hltBrace
    refine ⟨hbrace.aside (hbrace.toTracks.setBody hheldBrace body)
      (.modifyDeclaration (P := (· = tag)) rfl _)
      (.modifyDeclaration (P := (· = moved k tag)) rfl _) (Nat.ne_of_gt hlt)
      (moved_ne (Nat.ne_of_gt hlt)), ?_⟩
    rintro _ ⟨⟩
    exact ⟨hheldBrace.of_scopeAt rfl rfl, hlt⟩

/-- A struct ends in both readings, up to the semicolon. -/
theorem endName (h : Abreast k n s s') {c : ScopeId} {outer : List ScopeId}
    (houter : s.outer = c :: outer) (hlt : c < s.scopes.size)
    (htag : ∀ tag ∈ tag?, Held k n s s' tag ∧ tag < s.token)
    (hroot : c = 0 → s.AtRoot keyword ∧ NoAlias n (structEnd cStructs keyword tag? body s).2)
    (hquiet : Quiet k s s' (s.endName cStructs keyword tag? body))
    (hclean : (structEnd cStructs keyword tag? body s).2.Clean) :
    Abreast k n (s.endName cStructs keyword tag? body)
        (s'.endName cStructs (moved k keyword) (tag?.map (moved k)) body) ∧
      (structEnd cStructs (moved k keyword) (tag?.map (moved k)) body s').2 =
        (s'.endName cStructs (moved k keyword) (tag?.map (moved k)) body).advance cStructs := by
  obtain ⟨hisSome, hcheck, heq⟩ := structEnd_of_clean hclean
  rw [heq] at hroot hclean
  have hcleanName : (s.endName cStructs keyword tag? body).Clean :=
    (grows_advance _ _).clean hclean
  have hcleanBody := (grows_typedefName _ _ _ _ _).clean hcleanName
  have htraceName := Trace.of_typedefName cStructs (s.leaveBody cStructs tag? body) keyword tag? body
  have hsize' : s'.symbols.size ≤
      (s'.leaveBody cStructs (tag?.map (moved k)) body).symbols.size := by
    rw [← (Aside.closeScope (P := fun _ => False) s').size]
    exact (trace_leaveBody cStructs s' (tag?.map (moved k)) body).spares.size_le
  have hscope : (s.leaveBody cStructs tag? body).scope = c := scope_leaveBody houter
  obtain ⟨hleave, hheld⟩ := h.leaveBody hget houter hlt htag
    (hquiet.first htraceName.spares.size_le) hcleanBody
  have hrootBody (hzero : (s.leaveBody cStructs tag? body).scope = 0) :
      (s.leaveBody cStructs tag? body).AtRoot keyword := (hroot (hscope ▸ hzero)).1.leaveBody
  -- a typedef name spelled `n` would still be an alias at the end
  have hn : ∀ tag ∈ tag?, (s.leaveBody cStructs tag? body).current.kind = .name →
      (s.leaveBody cStructs tag? body).scope = 0 →
        (s.leaveBody cStructs tag? body).current.value ≠ n := by
    rintro tag rfl hname hzero
    exact (hroot (hscope ▸ hzero)).2.current_ne hleave.spare.lt (Nat.ne_of_gt (hheld tag rfl).2) hname
      hzero hcleanName
  obtain ⟨hname, hisNone⟩ := hleave.typedefName hget hrootBody hheld hn
    (hquiet.rest h.phase hleave.phase hsize') hcleanName
  refine ⟨hname, structEnd_of_check (hisNone.trans hisSome) ?_⟩
  exact (hname.check ";").trans hcheck

end Abreast

end Ends

end State

end CStruct.Parse
