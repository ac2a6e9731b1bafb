import CStruct.Proofs.Declared.Kept

/-!
# Typedef names at the end

What holds between two pieces of a C source: typedef names have their places, and the token is no
danger to them. So they have their places when reading ends, with or without warnings.
-/

namespace CStruct.Parse

open SymbolTable State

variable {s s' : State} {name keyword tag id : SymbolId}

namespace State

/-! ## Keywords -/

/-- A keyword takes no place away that belongs to a typedef name. -/
theorem Kept.reserve (h : s.Kept) (hfree : ∀ p b, (s.symbol p).alias? = some b →
    (s.symbol b).scope? = some s.scope → (s.symbol b).value ≠ (s.symbol keyword).value) :
    (s.reserve keyword).Kept := by
  rcases reserve_cases s keyword with heq | ⟨ds, -, heq⟩
  · rw [heq]
    exact h
  · rw [heq]
    have hreport : Upholds s { s with diagnostics := ds } := .of_eq rfl rfl
    have hmark : Upholds s
        (State.modifySymbol { s with diagnostics := ds } keyword ({ · with reserved := true })) :=
      hreport.trans (.modifySymbol (fun _ => Iff.rfl) (fun _ => rfl) (fun _ => rfl) (fun _ => rfl)
        fun _ => .inl)
    have hkept := h.upheld hmark h.open_lt
    refine ⟨hkept.role, fun p b hb => ⟨(hkept.placed p b hb).declared, fun k hk => ?_⟩, ?_⟩
    · obtain ⟨e, he, hd⟩ := (hkept.placed p b hb).entry k hk
      refine ⟨e, ?_, hd⟩
      rw [scopeAt_bind]
      split
      · rename_i hopen
        rw [Scope.get?, Scope.insert, Dictionary.get?_insert, if_neg]
        · exact he
        · -- otherwise the keyword would be spelled like the typedef name
          intro hvalue
          have htouched := touches_reserved.value_eq { s with diagnostics := ds } keyword b
          have hold : (s.symbol p).alias? = some b := by
            change ((State.modifySymbol { s with diagnostics := ds } keyword
              ({ · with reserved := true })).symbol p).alias? = some b at hb
            rw [Parse.symbol_modifySymbol] at hb
            split at hb <;> exact hb
          have hscope : (s.symbol b).scope? = some s.scope := by
            change ((State.modifySymbol { s with diagnostics := ds } keyword
              ({ · with reserved := true })).symbol b).scope? = some k at hk
            rw [Parse.symbol_modifySymbol] at hk
            rw [← show k = s.scope from hopen.1]
            split at hk <;> exact hk
          exact hfree p b hold hscope (htouched.symm.trans hvalue)
      · exact he
    · show ∀ k ∈ s.scope :: s.outer, k < (s.scopes.modify s.scope _).size
      rw [Array.size_modify]
      exact h.open_lt

/-! ## The token -/

/-- Nothing is read as a keyword where its spelling stands for a declared name. -/
theorem Kept.clear_advance (h : s.Kept) (hspelled : ∀ l ∈ s.pending, l.IsSpelled) :
    (s.advance cStructs).Clear := by
  intro he hstd p b hb hscope hvalue
  apply hstd
  have htoken : (s.advance cStructs).token = s.symbols.size := by
    apply token_advance
    rcases advance_cases cStructs s with ⟨l, ls, -, hadds⟩ | ⟨-, hnone, -⟩ | ⟨-, -, hadds⟩
    · exact hadds.endSymbol.symm.trans he
    · exact hnone
    · exact hadds.endSymbol.symm.trans he
  rcases advance_cases cStructs s with ⟨l, ls, hnext, hadds⟩ | ⟨-, -, hadds⟩ | ⟨-, hsome, hadds⟩
  · have hl : l ∈ s.pending :=
      (List.dropWhile_sublist _).subset (by rw [hnext]; exact List.mem_cons_self)
    have hcurrent : (s.advance cStructs).current = default ∨
        (s.advance cStructs).current = s.madeOf (s.prototypeOf cStructs l) l := by
      rw [current, htoken]
      exact (hadds.symbol (Nat.lt_irrefl _)).imp_right List.mem_singleton.1
    rcases hcurrent with hcurrent | hcurrent
    · rw [hcurrent]
      rfl
    · rw [hcurrent] at hvalue ⊢
      show (s.prototypeOf cStructs l).role.std = none
      by_cases hword : l.IsWord
      · -- the spelling stands for a declared name in the open scope
        have hplaced := h.placed p b (alias?_advance hb)
        have hsymbol := symbol_advance (t := cStructs)
          ((bounds_size s).declared b hplaced.declared)
        rw [hsymbol, scope_advance.1] at hscope
        rw [hsymbol] at hvalue
        obtain ⟨e, he, hd⟩ := hplaced.entry s.scope hscope
        rw [show (s.symbol b).value = l.text from hvalue] at he
        have hresolve : s.resolve cStructs l.text = (s.symbol e).toPrototype := by
          unfold State.resolve State.find?
          rw [List.findSome?_cons, he]
        have hprototype : s.prototypeOf cStructs l = s.resolve cStructs l.text := by
          unfold State.prototypeOf State.prototype?
          rcases hword with hkind | hkind <;> rw [hkind] <;> rfl
        rw [hprototype, hresolve]
        exact congrArg (·.std) (h.role e hd)
      · exact std_of_not_isWord (hspelled l hl) (isComment_of_next hnext) hword s
  · rw [hadds.endSymbol] at he
    cases he
  · rw [← hadds.endSymbol, he] at hsome
    cases hsome

theorem Kept.advance (h : s.Kept) (t : SymbolTable) : (s.advance t).Kept := by
  apply h.upheld (.advance t s)
  rw [scope_advance.1, scope_advance.2, scopes_advance]
  exact h.open_lt

theorem Kept.expect (h : s.Kept) (hspelled : ∀ l ∈ s.pending, l.IsSpelled) (id : String) :
    (s.expect cStructs id).Kept ∧ (s.expect cStructs id).Clear := by
  have hkept : (if s.check id then s else s.reportExpected id).Kept := by
    split
    · exact h
    · have hreport : Upholds s (s.reportExpected id) := .of_eq rfl rfl
      exact h.upheld hreport h.open_lt
  have hpending : (if s.check id then s else s.reportExpected id).pending = s.pending := by
    split <;> rfl
  exact ⟨hkept.advance cStructs, hkept.clear_advance (by rw [hpending]; exact hspelled)⟩

/-- The token stays, and so do the typedef names. -/
theorem Clear.of_eq (h : s.Clear) (hend : s'.endSymbol? = s.endSymbol?)
    (hscope : s'.scope = s.scope) (hrole : s'.current.role = s.current.role)
    (hvalue : s'.current.value = s.current.value)
    (hnames : ∀ p b, (s'.symbol p).alias? = some b → (s.symbol p).alias? = some b ∧
      (s'.symbol b).scope? = (s.symbol b).scope? ∧ (s'.symbol b).value = (s.symbol b).value) :
    s'.Clear := by
  intro he hstd p b hb hbscope
  obtain ⟨hold, hscope', hvalue'⟩ := hnames p b hb
  rw [hend] at he
  rw [hrole] at hstd
  rw [hscope', hscope] at hbscope
  rw [hvalue', hvalue]
  exact h he hstd p b hold hbscope

/-- A change to a symbol that leaves its role, its spelling and its place. -/
theorem Clear.modifySymbol (h : s.Clear) {f : Symbol → Symbol}
    (hvalue : ∀ x, (f x).value = x.value) (hscope : ∀ x, (f x).scope? = x.scope?)
    (hrole : ∀ x, (f x).role = x.role)
    (halias : ∀ x b, (f x).alias? = some b → x.alias? = some b) (id : SymbolId) :
    (s.modifySymbol id f).Clear := by
  have hsame {α : Type} {g : Symbol → α} (hg : ∀ x, g (f x) = g x) (d : SymbolId) :
      g ((s.modifySymbol id f).symbol d) = g (s.symbol d) := by
    rw [Parse.symbol_modifySymbol]
    split
    · exact hg _
    · rfl
  refine h.of_eq rfl rfl (hsame (g := fun x => x.role) hrole s.token) (hsame hvalue s.token)
    fun p b hb => ⟨?_, hsame hscope b, hsame hvalue b⟩
  rw [Parse.symbol_modifySymbol] at hb
  split at hb
  · exact halias _ b hb
  · exact hb

theorem Clear.modifyDeclaration (h : s.Clear) {f : Declaration → Declaration}
    (halias : ∀ x, (f x).alias? = x.alias?) (id : SymbolId) :
    (s.modifyDeclaration id f).Clear := by
  refine h.modifySymbol (f := fun x => { x with declaration? := x.declaration?.map f })
    (fun _ => rfl) (fun _ => rfl) (fun _ => rfl) (fun x b hb => ?_) id
  obtain ⟨y, hy, hb⟩ := Option.bind_eq_some_iff.1 hb
  obtain ⟨z, hz, rfl⟩ := Option.map_eq_some_iff.1 hy
  rw [Symbol.alias?, hz]
  exact (halias z).symm.trans hb

/-! ## Between two pieces -/

/-- Typedef names have their places, and the token does not endanger them. -/
structure Tidy (s : State) : Prop where
  poised : s.Poised cStructs
  spelled : ∀ l ∈ s.pending, l.IsSpelled
  unprefixed : ∀ id, (s.symbol id).role.nud ≠ some .prefixed
  kept : s.Kept
  clear : s.Clear

namespace Tidy

theorem of_changes (h : s.Tidy) (hchanges : Changes cStructs s s') (hpoised : s'.Poised cStructs)
    (hkept : s'.Kept) (hclear : s'.Clear) : s'.Tidy where
  poised := hpoised
  spelled := fun l hl => h.spelled l (hchanges.pending.subset hl)
  unprefixed := hchanges.role (R := fun role => role.nud ≠ some .prefixed) nud_of_table nofun
    h.unprefixed
  kept := hkept
  clear := hclear

theorem advance (h : s.Tidy) : (s.advance cStructs).Tidy := by
  exact h.of_changes (.single (.advance s)) h.poised.advance.poised
    (h.kept.advance cStructs) (h.kept.clear_advance h.spelled)

theorem report (h : s.Tidy) (id : SymbolId) (problem : Problem) : (s.report id problem).Tidy := by
  have hpoised : s.Proceeds cStructs (s.report id problem) := h.poised.of_eq rfl rfl rfl rfl
  exact h.of_changes (.single (.report s _)) hpoised.poised
    (h.kept.upheld (.of_eq rfl rfl) h.kept.open_lt)
    (h.clear.of_eq rfl rfl rfl rfl fun _ _ hb => ⟨hb, rfl, rfl⟩)

theorem expect (h : s.Tidy) (id : String) : (s.expect cStructs id).Tidy := by
  unfold State.expect
  split
  · exact h.advance
  · exact (h.report s.token _).advance

/-- A symbol that has been passed becomes an operator. -/
theorem touch (h : s.Tidy) {f : Symbol → Symbol} (hf : Touches f)
    (hscope : ∀ x, (f x).scope? = x.scope?) (hrole : ∀ x, (f x).role = x.role)
    (hdeclaration : ∀ x, (f x).declaration? = x.declaration?) (hid : id < s.token) :
    (s.modifySymbol id f).Tidy := by
  have halias (x : Symbol) (b : SymbolId) (hb : (f x).alias? = some b) : x.alias? = some b := by
    rw [Symbol.alias?, hdeclaration] at hb
    exact hb
  apply h.of_changes (.single (.touch (h.poised.sound.plain_of_lt hid) hf))
    (h.poised.modifySymbol hid f).poised
  · apply h.kept.upheld (.modifySymbol (fun x => by rw [hdeclaration]) hf.value hscope hrole
      fun b hb => .inl (halias _ b hb)) h.kept.open_lt
  · exact h.clear.modifySymbol hf.value hscope hrole halias id

theorem modifyDeclaration (h : s.Tidy) {f : Declaration → Declaration}
    (halias : ∀ x, (f x).alias? = x.alias?) (hid : id < s.token) :
    (s.modifyDeclaration id f).Tidy := by
  apply h.of_changes
    (.single (.touch (h.poised.sound.plain_of_lt hid) (touches_declaration _)))
    (h.poised.modifyDeclaration hid f).poised
  · exact h.kept.upheld (.modifyDeclaration fun x b hb => .inl ((halias x).symm.trans hb))
      h.kept.open_lt
  · exact h.clear.modifyDeclaration halias id

/-- A name that has been passed is declared. -/
theorem define (h : s.Tidy) (hname : s.Passed name) (type : SymbolId) :
    (s.define name type).Tidy := by
  have hlt := Nat.lt_trans hname.lt h.poised.sound.token_lt
  apply h.of_changes (changes_define cStructs (h.poised.sound.plain_of_lt hname.lt) type)
    (h.poised.define hname.lt type).poised
  · apply h.kept.upheld (.define hname.undeclared hlt type)
    rw [(scope_define s name type).1, (scope_define s name type).2.1,
      (scope_define s name type).2.2]
    exact h.kept.open_lt
  · obtain ⟨ds, heq⟩ := define_eq s name type
    rw [heq]
    have hsame {d : SymbolId} (hd : d ≠ name) :
        (({ s with diagnostics := ds }.declare name type).bind (s.symbol name).value name).symbol d =
          s.symbol d :=
      symbol_modifySymbol_of_ne (s := { s with diagnostics := ds }) hd
    have hcurrent := hsame (Nat.ne_of_gt hname.lt)
    refine h.clear.of_eq rfl rfl (congrArg (fun x => x.role) hcurrent)
      (congrArg (fun x => x.value) hcurrent) fun p b hb => ?_
    -- a name that has just been declared has no typedef name
    have hp : p ≠ name := by
      rintro rfl
      have hself : (({ s with diagnostics := ds }.declare p type).bind
          (s.symbol p).value p).symbol p = s.declaredAs (s.symbol p) { declaredType := type } :=
        symbol_declare (s := { s with diagnostics := ds }) hlt
      rw [hself] at hb
      cases hb
    rw [hsame hp] at hb
    have hb' : b ≠ name := by
      rintro rfl
      exact (h.kept.placed p b hb).declared hname.undeclared
    rw [hsame hb']
    exact ⟨hb, rfl, rfl⟩

/-! ### Expressions -/

section Expressions

variable {fuel m : Nat} {left top : SymbolId}

theorem nullDenotation (h : s.Tidy)
    (hnull : Parse.nullDenotation (expression cStructs fuel) s.token (s.advance cStructs) =
      some s') : s'.Tidy := by
  rcases nullDenotation_cases hnull with ⟨-, rfl⟩ | ⟨hnud, -⟩ | ⟨-, rfl⟩
  · exact h.advance
  · exact absurd hnud (h.advance.unprefixed s.token)
  · exact h.advance.report _ _

theorem leftDenotation (h : s.Tidy) (he : s.endSymbol? = none)
    (hread : ∀ m s top s', s.Tidy → expression cStructs fuel m s = some (top, s') → s'.Tidy)
    (hleft : Parse.leftDenotation (expression cStructs fuel) s.token left (s.advance cStructs) =
      some s') : s'.Tidy := by
  rcases leftDenotation_cases hleft with ⟨-, right, s₂, hright, rfl⟩ | ⟨-, rfl⟩
  · have hrun := steps_expression stops_cStructs h.advance.poised hright
    have hpassed := hrun.passed h.advance.poised (h.poised.passed he)
    exact (hread _ _ _ _ h.advance hright).touch (touches_operands left right) (fun _ => rfl)
      (fun _ => rfl) (fun _ => rfl) hpassed.lt
  · exact h.advance.report _ _

theorem expression_operators (fuel : Nat) :
    (∀ m s top s', s.Tidy → expression cStructs fuel m s = some (top, s') → s'.Tidy) ∧
    (∀ m left s top s', s.Tidy → operators cStructs fuel m left s = some (top, s') → s'.Tidy) := by
  induction fuel using Nat.strongRecOn with
  | ind fuel ih =>
    refine ⟨fun m s top s' hs h => ?_, fun m left s top s' hs h => ?_⟩
    · obtain ⟨n, s₁, rfl, hnull, hoperators⟩ := expression_cases h
      exact (ih n (Nat.lt_succ_self n)).2 _ _ _ _ _ (hs.nullDenotation hnull) hoperators
    · rcases operators_cases h with ⟨-, heq⟩ | ⟨hpower, n, s₁, rfl, hleft, hoperators⟩
      · cases heq
        exact hs
      · obtain ⟨ihexpression, ihoperators⟩ := ih n (Nat.lt_succ_self n)
        -- what binds is not the end
        have he : s.endSymbol? = none := by
          by_contra he
          rw [(hs.poised.sound.current he).power stops_cStructs] at hpower
          exact Nat.not_lt_zero m hpower
        exact ihoperators _ _ _ _ _ (hs.leftDenotation he ihexpression hleft) hoperators

theorem expression (h : s.Tidy) (hread : Parse.expression cStructs fuel m s = some (top, s')) :
    s'.Tidy :=
  (expression_operators fuel).1 m s top s' h hread

end Expressions

/-! ### Statements -/

/-- The keyword of a statement is reserved, which endangers no typedef name. -/
theorem enterStatement (h : s.Tidy) (he : s.endSymbol? = none)
    (hstd : s.current.role.std ≠ none) : (s.enterStatement cStructs).Tidy := by
  have hs₁ := h.advance
  have hpassed := h.poised.passed (t := cStructs) he
  have hfree (p b : SymbolId) (hb : ((s.advance cStructs).symbol p).alias? = some b)
      (hscope : ((s.advance cStructs).symbol b).scope? = some (s.advance cStructs).scope) :
      ((s.advance cStructs).symbol b).value ≠ ((s.advance cStructs).symbol s.token).value := by
    have hplaced := h.kept.placed p b (alias?_advance hb)
    rw [symbol_advance ((bounds_size s).declared b hplaced.declared)] at hscope ⊢
    rw [scope_advance.1] at hscope
    rw [symbol_advance h.poised.sound.token_lt]
    exact h.clear he hstd p b (alias?_advance hb) hscope
  have hreserved : ((s.advance cStructs).reserve s.token).Tidy := by
    apply hs₁.of_changes (changes_reserve cStructs (hs₁.poised.sound.plain_of_lt hpassed.lt))
      (hs₁.poised.reserve hpassed.lt).poised (hs₁.kept.reserve hfree)
    rcases reserve_cases (s.advance cStructs) s.token with heq | ⟨ds, -, heq⟩
    · rw [heq]
      exact hs₁.clear
    · rw [heq]
      have hreport : Clear { s.advance cStructs with diagnostics := ds } :=
        hs₁.clear.of_eq rfl rfl rfl rfl fun _ _ hb => ⟨hb, rfl, rfl⟩
      exact (hreport.modifySymbol (f := ({ · with reserved := true })) (fun _ => rfl)
        (fun _ => rfl) (fun _ => rfl) (fun _ _ hb => hb) s.token).of_eq rfl rfl rfl rfl
          fun _ _ hb => ⟨hb, rfl, rfl⟩
  have hlt : s.token < ((s.advance cStructs).reserve s.token).token := by
    rw [token_reserve]
    exact hpassed.lt
  exact hreserved.touch touches_statement (fun _ => rfl) (fun _ => rfl) (fun _ => rfl) hlt

/-- A name is declared when it is the token, and passed at once. -/
theorem pass (h : s.Tidy) (hchanges : Changes cStructs s s') (hleads : s.Leads cStructs s')
    (htoken : s'.token = s.token) (he : s'.endSymbol? = none) (hupholds : Upholds s s')
    (hscope : s'.scope = s.scope) (houter : s'.outer = s.outer) :
    (s'.advance cStructs).Tidy := by
  have hkept : s'.Kept := h.kept.upheld hupholds (by
    rw [hscope, houter]
    exact fun k hk => Nat.lt_of_lt_of_le (h.kept.open_lt k hk) hupholds.scopes_le)
  exact h.of_changes (hchanges.tail (.advance s'))
    (hleads.proceeds_advance htoken he).poised (hkept.advance cStructs)
    (hkept.clear_advance fun l hl => h.spelled l (hchanges.pending.subset hl))

theorem typedef (h : s.Tidy) (hname : s.current.kind = .name) (keyword : SymbolId)
    (body : ScopeId) :
    (((s.define s.token keyword).setBody s.token body).advance cStructs).Tidy := by
  obtain ⟨he, hplain⟩ := h.poised.plain_name hname
  have hdefine := h.poised.sound.define hplain keyword
  have hplain' := hdefine.plain _ hplain
  have hchanges : Changes cStructs s ((s.define s.token keyword).setBody s.token body) :=
    (changes_define cStructs hplain keyword).tail (.touch hplain' (touches_declaration _))
  have hleads : s.Leads cStructs ((s.define s.token keyword).setBody s.token body) :=
    hdefine.trans (hdefine.sound.modifyDeclaration hplain' _)
  have hupholds : Upholds s ((s.define s.token keyword).setBody s.token body) :=
    (Upholds.define h.poised.undeclared hplain.lt keyword).trans
      (.modifyDeclaration fun _ _ hb => .inl hb)
  have htoken : ((s.define s.token keyword).setBody s.token body).token = s.token :=
    token_define s s.token keyword
  have he' : ((s.define s.token keyword).setBody s.token body).endSymbol? = none :=
    (endSymbol?_define s s.token keyword).trans he
  have hscope := scope_define s s.token keyword
  exact h.pass hchanges hleads htoken he' hupholds hscope.1 hscope.2.1

theorem piece (h : s.Tidy) (hpiece : Piece cStructs s s') : s'.Tidy := by
  cases hpiece with
  | advance => exact h.advance
  | report => exact h.report _ _
  | expression hread => exact h.expression hread
  | keyword he hstd => exact h.enterStatement he hstd
  | @member _ keyword hname =>
    obtain ⟨he, hplain⟩ := h.poised.plain_name hname
    have hscope := scope_define s s.token keyword
    exact h.pass (changes_define cStructs hplain keyword) (h.poised.sound.define hplain keyword)
      (token_define _ _ _) ((endSymbol?_define _ _ _).trans he)
      (.define h.poised.undeclared hplain.lt keyword) hscope.1 hscope.2.1
  | dimension hlt => exact h.modifyDeclaration (fun _ => rfl) hlt
  | forward keyword htag => exact h.define htag.toPassed keyword
  | typedef keyword body hname => exact h.typedef hname keyword body
  | @aliased _ tag keyword hname hlt =>
    obtain ⟨he, hplain⟩ := h.poised.plain_name hname
    have htag := h.poised.sound.plain_of_lt hlt
    have hscope : (s.defineAlias s.token keyword tag).scope = s.scope ∧
        (s.defineAlias s.token keyword tag).outer = s.outer := by
      obtain ⟨ds, heq | heq⟩ := defineAlias_cases s s.token keyword tag <;> rw [heq] <;>
        exact ⟨rfl, rfl⟩
    exact h.pass (changes_defineAlias cStructs hplain htag keyword)
      (h.poised.sound.defineAlias hplain htag keyword) (token_defineAlias _ _ _ _)
      ((endSymbol?_defineAlias _ _ _ _).trans he)
      (.defineAlias h.poised.undeclared hplain.lt (h.kept.open_lt _ List.mem_cons_self) keyword tag)
      hscope.1 hscope.2

/-! ### Bodies -/

/-- No typedef name stands in a scope that has just been opened. -/
theorem openScope (h : s.Tidy) : s.openScope.Tidy := by
  have hpoised : s.Proceeds cStructs s.openScope := h.poised.of_eq rfl rfl rfl rfl
  apply h.of_changes (.single (.openScope s)) hpoised.poised
  · apply h.kept.upheld (.openScope s)
    intro k hk
    rw [State.openScope, Array.size_push]
    rcases List.mem_cons.1 hk with rfl | hk
    · exact Nat.lt_succ_self _
    · exact Nat.lt_succ_of_lt (h.kept.open_lt k hk)
  · intro he hstd p b hb hscope
    obtain ⟨e, hentry, -⟩ := (h.kept.placed p b hb).entry s.scopes.size hscope
    rw [scopeAt, Array.getD_eq_getD_getElem?, Array.getElem?_eq_none (Nat.le_refl _)] at hentry
    cases hentry

theorem enterBody (h : s.Tidy) (keyword : SymbolId) {tag? : Option SymbolId}
    (htag : ∀ tag ∈ tag?, s.Passed tag) : (s.enterBody cStructs keyword tag?).Tidy := by
  unfold State.enterBody
  cases tag? with
  | none => exact (h.expect openBrace).openScope
  | some tag => exact ((h.define (htag tag rfl) keyword).expect openBrace).openScope

/-- The token is read anew when a scope is closed. -/
theorem leaveBody (h : s.Tidy) {tag? : Option SymbolId} (body : ScopeId)
    (htag : ∀ tag ∈ tag?, tag < s.token) : (s.leaveBody cStructs tag? body).Tidy := by
  have hkept : s.closeScope.Kept := by
    apply h.kept.upheld (.closeScope s)
    unfold State.closeScope
    split
    · exact h.kept.open_lt
    · rename_i k outer houter
      intro i hi
      exact h.kept.open_lt i (List.mem_cons_of_mem _ (by rw [houter]; exact hi))
  have hpending : s.closeScope.pending = s.pending := by
    unfold State.closeScope
    split <;> rfl
  have hclose := h.poised.closeScope
  have hnext := hclose.poised.expect closeBrace
  have hexpect : (s.closeScope.expect cStructs closeBrace).Tidy := by
    obtain ⟨hkept', hclear⟩ := hkept.expect (by rw [hpending]; exact h.spelled) closeBrace
    exact h.of_changes (Changes.trans (.single (.closeScope s))
      (changes_expect cStructs closeBrace _)) hnext.poised hkept' hclear
  unfold State.leaveBody
  cases tag? with
  | none => exact hexpect
  | some tag =>
    have hlt := Nat.lt_of_lt_of_le (htag tag rfl) (hclose.trans hnext).token_le
    exact hexpect.modifyDeclaration (f := ({ · with innerScope? := some body })) (fun _ => rfl) hlt

theorem course (h : s.Tidy) (hcourse : Course cStructs s s') : s'.Tidy := by
  induction hcourse with
  | refl => exact h
  | piece _ hpiece ih => exact (ih h).piece hpiece
  | block keyword hbefore htag hbody ih ihbody =>
    have henter := (ih h).enterBody keyword fun tag hmem => (htag tag hmem).toPassed
    have hproceeds := (ih h).poised.enterBody keyword
      fun tag hmem => (htag tag hmem).toPassed
    have hinside := hproceeds.trans (hbody.proceeds stops_cStructs henter.poised)
    exact (ihbody henter).leaveBody _ fun tag hmem =>
      Nat.lt_of_lt_of_le (htag tag hmem).lt hinside.token_le

end Tidy

/-! ## The end of reading -/

theorem kept_ofLexemes (lexemes : List Lexeme) (endPosition : Position) :
    (State.ofLexemes lexemes endPosition).Kept where
  role := fun _ hd => absurd rfl hd
  placed := nofun
  open_lt := fun k hk => by
    rw [List.mem_singleton.1 hk]
    exact Nat.zero_lt_one

theorem tidy_ofLexemes {lexemes : List Lexeme} (hspelled : ∀ l ∈ lexemes, l.IsSpelled)
    (endPosition : Position) :
    ((State.ofLexemes lexemes endPosition).advance cStructs).Tidy := by
  have hstart := kept_ofLexemes lexemes endPosition
  have hfirst : Changes cStructs (.ofLexemes lexemes endPosition)
      ((State.ofLexemes lexemes endPosition).advance cStructs) := .single (.advance _)
  refine ⟨poised_ofLexemes cStructs lexemes endPosition,
    fun l hl => hspelled l (hfirst.pending.subset hl), ?_, ?_, hstart.clear_advance hspelled⟩
  · exact hfirst.role (R := fun role => role.nud ≠ some .prefixed) nud_of_table nofun
      fun _ => nofun
  · exact hstart.advance cStructs

end State

end CStruct.Parse

namespace CStruct.TranslationUnit

open SymbolTable Parse Parse.State

/-- The spelling of a typedef name stands for a declared name in its scope, whatever has been
declared since. -/
theorem isSome_lookup?_of_alias? {source : String} {p b : SymbolId} {k : ScopeId}
    (hb : ((ofSource source).symbol p).alias? = some b)
    (hscope : ((ofSource source).symbol b).scope? = some k) :
    ((ofSource source).lookup? k ((ofSource source).symbol b).value).isSome = true := by
  have hspelled : ∀ l ∈ (Lexicon.lexemes source).1, l.IsSpelled :=
    fun _ => Lexicon.isSpelled_of_mem_lexemes
  obtain ⟨names, s, hs, hu, -, hc, -⟩ := brings_ofLexemes (ofLexemes?_ofSource source)
  have hstart := tidy_ofLexemes hspelled (Lexicon.lexemes source).2.position
  have hend := hstart.course (course_program stops_cStructs hstart.poised hs)
  rw [hu] at hb hscope ⊢
  obtain ⟨e, he, hdeclared⟩ := (hend.kept.placed p b hb).entry k hscope
  obtain ⟨j, std, x, hx⟩ := (hc.made hdeclared).isDeclared
  have hentry : ((ofState names s).scope k).get? ((ofState names s).symbol b).value = some e := he
  have hname : ((ofState names s).symbol e).isDeclaration = true := hx.isDeclaration
  rw [lookup?, hentry, Option.filter_some, if_pos hname]
  rfl

end CStruct.TranslationUnit
