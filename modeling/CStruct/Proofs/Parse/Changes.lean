import CStruct.Proofs.Parse.Steps
import Mathlib.Logic.Relation

/-!
# What steps are made of

A step of reading is made of a few kinds of changes: the next symbol is read, a symbol that has been
read is touched up, a name is bound to such a symbol, and a scope is opened or closed. An invariant
that speaks of single changes needs no more than these.
-/

namespace CStruct.Parse

open SymbolTable State

/-- A change to a symbol that leaves what was read of it, and makes it neither the end nor a keyword
nor a literal. -/
structure Touches (f : Symbol → Symbol) : Prop where
  value : ∀ x, (f x).value = x.value
  span : ∀ x, (f x).span = x.span
  id : ∀ x, (f x).id = x.id
  role : ∀ x, (f x).role = x.role ∨ (f x).role = .ofDeclared
  kind : ∀ x, (f x).kind = .endOfInput → x.kind = .endOfInput
  literal : ∀ x, (f x).kind = .literal → x.kind = .literal

inductive Change (t : SymbolTable) : State → State → Prop
  | advance (s : State) : Change t s (s.advance t)
  | report (s : State) (ds : Diagnostics) : Change t s { s with diagnostics := ds }
  | touch {s : State} {id : SymbolId} {f : Symbol → Symbol} (hplain : s.Plain id)
    (hf : Touches f) : Change t s (s.modifySymbol id f)
  | bind {s : State} {id : SymbolId} {name : String} (hplain : s.Plain id)
    (hname : (s.symbol id).value = name) : Change t s (s.bind name id)
  | openScope (s : State) : Change t s s.openScope
  | closeScope (s : State) : Change t s s.closeScope

abbrev Changes (t : SymbolTable) : State → State → Prop := Relation.ReflTransGen (Change t)

variable {t : SymbolTable} {s s' s'' : State}

theorem Changes.trans (h : Changes t s s') (h' : Changes t s' s'') : Changes t s s'' :=
  Relation.ReflTransGen.trans h h'

/-! ## Touching symbols -/

theorem symbol_modifySymbol (s : State) (id : SymbolId) (f : Symbol → Symbol) (i : SymbolId) :
    (s.modifySymbol id f).symbol i =
      if i = id ∧ i < s.symbols.size then f (s.symbol i) else s.symbol i := by
  by_cases hi : i = id
  · subst hi
    by_cases hlt : i < s.symbols.size
    · rw [if_pos ⟨rfl, hlt⟩, symbol_modifySymbol_self hlt]
    · rw [if_neg fun h => hlt h.2]
      have hnone : s.symbols[i]? = none := Array.getElem?_eq_none (Nat.le_of_not_lt hlt)
      rw [State.symbol, State.symbol, State.modifySymbol, Array.getD_eq_getD_getElem?,
        Array.getElem?_modify, if_pos rfl, Array.getD_eq_getD_getElem?, hnone]
      rfl
  · rw [if_neg fun h => hi h.1, symbol_modifySymbol_of_ne hi]

theorem Touches.value_eq {f : Symbol → Symbol} (hf : Touches f) (s : State) (id i : SymbolId) :
    ((s.modifySymbol id f).symbol i).value = (s.symbol i).value := by
  rw [symbol_modifySymbol]
  split
  · exact hf.value _
  · rfl

/-- A change that makes symbols of one kind. -/
theorem touches_of_kind {f : Symbol → Symbol} {k : SymbolKind} (hvalue : ∀ x, (f x).value = x.value)
    (hspan : ∀ x, (f x).span = x.span) (hid : ∀ x, (f x).id = x.id)
    (hrole : ∀ x, (f x).role = x.role ∨ (f x).role = .ofDeclared) (hkind : ∀ x, (f x).kind = k)
    (hk : k ≠ .endOfInput) (hliteral : k ≠ .literal) : Touches f :=
  ⟨hvalue, hspan, hid, hrole, fun x h => absurd ((hkind x).symm.trans h) hk,
    fun x h => absurd ((hkind x).symm.trans h) hliteral⟩

theorem touches_declaration (f : Option Declaration → Option Declaration) :
    Touches fun x => { x with declaration? := f x.declaration? } :=
  ⟨fun _ => rfl, fun _ => rfl, fun _ => rfl, fun _ => .inl rfl, fun _ => id, fun _ => id⟩

theorem touches_reserved : Touches ({ · with reserved := true }) :=
  ⟨fun _ => rfl, fun _ => rfl, fun _ => rfl, fun _ => .inl rfl, fun _ => id, fun _ => id⟩

theorem touches_declare (scope : ScopeId) (type : SymbolId) :
    Touches fun x => { x with
      kind := .name
      role := .ofDeclared
      reserved := false
      scope? := some scope
      declaration? := some { declaredType := type } } :=
  touches_of_kind (fun _ => rfl) (fun _ => rfl) (fun _ => rfl) (fun _ => .inr rfl) (fun _ => rfl)
    nofun nofun

theorem touches_statement : Touches ({ · with kind := .statement }) :=
  touches_of_kind (fun _ => rfl) (fun _ => rfl) (fun _ => rfl) (fun _ => .inl rfl) (fun _ => rfl)
    nofun nofun

theorem touches_operand (o : SymbolId) : Touches ({ · with first? := some o, kind := .unary }) :=
  touches_of_kind (fun _ => rfl) (fun _ => rfl) (fun _ => rfl) (fun _ => .inl rfl) (fun _ => rfl)
    nofun nofun

theorem touches_operands (l r : SymbolId) :
    Touches ({ · with first? := some l, second? := some r, kind := .binary }) :=
  touches_of_kind (fun _ => rfl) (fun _ => rfl) (fun _ => rfl) (fun _ => .inl rfl) (fun _ => rfl)
    nofun nofun

/-! ## From steps to changes -/

theorem changes_define (t : SymbolTable) {name : SymbolId} (hplain : s.Plain name)
    (type : SymbolId) : Changes t s (s.define name type) := by
  obtain ⟨ds, heq⟩ := define_eq s name type
  rw [heq]
  have hreport : Changes t s { s with diagnostics := ds } := .single (.report s ds)
  have hdeclare : Changes t s ({ s with diagnostics := ds }.declare name type) :=
    hreport.tail (.touch ⟨hplain.lt, hplain.ne⟩ (touches_declare s.scope type))
  apply hdeclare.tail (.bind ?_ ?_)
  · refine ⟨?_, hplain.ne⟩
    rw [State.declare, State.modifySymbol, Array.size_modify]
    exact hplain.lt
  · exact (touches_declare s.scope type).value_eq { s with diagnostics := ds } name name

theorem changes_defineAlias (t : SymbolTable) {name struct : SymbolId} (hplain : s.Plain name)
    (hstruct : s.Plain struct) (type : SymbolId) :
    Changes t s (s.defineAlias name type struct) := by
  obtain ⟨ds, heq⟩ := defineAlias_eq s name type struct
  rw [heq]
  -- a remark, the declaration, its mark, the tie to the struct, and then the entry
  have hreport : Changes t s { s with diagnostics := ds } := .single (.report s ds)
  have hdeclare : Changes t s ({ s with diagnostics := ds }.declare name type) :=
    hreport.tail (.touch ⟨hplain.lt, hplain.ne⟩ (touches_declare s.scope type))
  have hsize (s' : State) (id : SymbolId) (f : Symbol → Symbol) :
      (s'.modifySymbol id f).symbols.size = s'.symbols.size := Array.size_modify
  have halias := touches_declaration (·.map ({ · with isAlias := true }))
  have htie := touches_declaration (·.map ({ · with alias? := some name }))
  have hmarked : Changes t s (({ s with diagnostics := ds }.declare name type).modifyDeclaration
      name ({ · with isAlias := true })) := by
    apply hdeclare.tail (.touch ⟨?_, hplain.ne⟩ halias)
    rw [State.declare, hsize]
    exact hplain.lt
  have htied : Changes t s ((({ s with diagnostics := ds }.declare name type).modifyDeclaration
      name ({ · with isAlias := true })).modifyDeclaration struct ({ · with alias? := some name })) := by
    apply hmarked.tail (.touch ⟨?_, hstruct.ne⟩ htie)
    rw [State.modifyDeclaration, State.declare, hsize, hsize]
    exact hstruct.lt
  dsimp only
  split
  · exact htied
  · apply htied.tail (.bind ⟨?_, hplain.ne⟩ ?_)
    · rw [State.modifyDeclaration, State.modifyDeclaration, State.declare, hsize, hsize, hsize]
      exact hplain.lt
    · rw [State.modifyDeclaration, htie.value_eq, State.modifyDeclaration, halias.value_eq]
      exact (touches_declare s.scope type).value_eq { s with diagnostics := ds } name name

theorem changes_reserve (t : SymbolTable) {keyword : SymbolId} (hplain : s.Plain keyword) :
    Changes t s (s.reserve keyword) := by
  rcases reserve_cases s keyword with heq | ⟨ds, -, heq⟩
  · rw [heq]
  · rw [heq]
    have hreport : Changes t s { s with diagnostics := ds } := .single (.report s ds)
    have hmark : Changes t s
        (State.modifySymbol { s with diagnostics := ds } keyword ({ · with reserved := true })) :=
      hreport.tail (.touch ⟨hplain.lt, hplain.ne⟩ touches_reserved)
    apply hmark.tail (.bind ⟨?_, hplain.ne⟩ ?_)
    · rw [State.modifySymbol, Array.size_modify]
      exact hplain.lt
    · exact touches_reserved.value_eq { s with diagnostics := ds } keyword keyword

theorem changes_expect (t : SymbolTable) (id : String) (s : State) :
    Changes t s (s.expect t id) := by
  unfold State.expect
  split
  · exact .single (.advance s)
  · exact .tail (.single (.report s _)) (.advance _)

theorem ExpressionStep.changes (h : ExpressionStep t s s') (hs : s.Poised t) : Changes t s s' := by
  cases h with
  | advance => exact .single (.advance s)
  | report id problem => exact .single (.report s _)
  | reserve hpassed => exact changes_reserve t (hs.sound.plain_of_lt hpassed.lt)
  | operand o hpassed =>
    exact .single (.touch (hs.sound.plain_of_lt hpassed.lt) (touches_operand o))
  | operands l r hpassed =>
    exact .single (.touch (hs.sound.plain_of_lt hpassed.lt) (touches_operands l r))

theorem Step.changes (h : Step t s s') (hs : s.Poised t) : Changes t s s' := by
  cases h with
  | expression h => exact h.changes hs
  | keyword hpassed =>
    exact .single (.touch (hs.sound.plain_of_lt hpassed.lt) touches_statement)
  | dimension length hlt =>
    exact .single (.touch (hs.sound.plain_of_lt hlt) (touches_declaration _))
  | forward keyword htag => exact changes_define t (hs.sound.plain_of_lt htag.lt) keyword
  | @member keyword hname =>
    exact (changes_define t (hs.plain_name hname).2 keyword).tail (.advance _)
  | typedef keyword body hname =>
    obtain ⟨-, hplain⟩ := hs.plain_name hname
    have hplain' := (hs.sound.define hplain keyword).plain _ hplain
    exact ((changes_define t hplain keyword).tail
      (.touch hplain' (touches_declaration _))).tail (.advance _)
  | aliased keyword hname hlt =>
    exact (changes_defineAlias t (hs.plain_name hname).2 (hs.sound.plain_of_lt hlt) keyword).tail
      (.advance _)

theorem changes_enterBody (hs : s.Poised t) (keyword : SymbolId) {tag? : Option SymbolId}
    (htag : ∀ tag ∈ tag?, s.Passed tag) : Changes t s (s.enterBody t keyword tag?) := by
  have hdefine : Changes t s (tag?.elim s fun tag => s.define tag keyword) := by
    cases tag? with
    | none => exact .refl
    | some tag => exact changes_define t (hs.sound.plain_of_lt (htag tag rfl).lt) keyword
  exact (hdefine.trans (changes_expect t openBrace _)).tail (.openScope _)

theorem changes_leaveBody (hs : s.Poised t) {tag? : Option SymbolId} (body : ScopeId)
    (htag : ∀ tag ∈ tag?, tag < s.token) : Changes t s (s.leaveBody t tag? body) := by
  have hclose : Changes t s (s.closeScope.expect t closeBrace) :=
    Changes.trans (.single (.closeScope s)) (changes_expect t closeBrace _)
  unfold State.leaveBody
  cases tag? with
  | none => exact hclose
  | some tag =>
    have hnext := hs.closeScope.trans (hs.closeScope.poised.expect closeBrace)
    have hlt := Nat.lt_of_lt_of_le (htag tag rfl) hnext.token_le
    exact hclose.tail (.touch (hnext.leads.sound.plain_of_lt hlt) (touches_declaration _))

/-- A run is made of changes. -/
theorem Run.changes (h : Run t s s') (hs : s.Poised t) : Changes t s s' := by
  induction h with
  | refl => exact .refl
  | step hrun hstep ih => exact (ih hs).trans (hstep.changes (hs.run hrun).poised)
  | block keyword hrun htag hbody ih ihbody =>
    have hs₁ := (hs.run hrun).poised
    have henter := hs₁.enterBody keyword htag
    have hinside := henter.trans (henter.poised.run hbody)
    refine ((ih hs).trans ((changes_enterBody hs₁ keyword htag).trans (ihbody henter.poised))).trans ?_
    apply changes_leaveBody hinside.poised
    intro tag hmem
    exact Nat.lt_of_lt_of_le (htag tag hmem).lt hinside.token_le

end CStruct.Parse
