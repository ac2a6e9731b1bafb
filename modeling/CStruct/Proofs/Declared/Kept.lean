import CStruct.Proofs.Declared.Names
import CStruct.Proofs.Lexicon.Spelling

/-!
# Typedef names keep their place

A typedef name takes a place in the scope where it is declared, and what takes that place later is
a declared name again: the only other thing that could take it is a keyword, and no lexeme is read
as a keyword where its spelling stands for a declared name. The one exception is the lexeme that is
read while a struct is declared ahead, because such a name is bound after that; `State.Clear` says
that a typedef name is out of danger even then.
-/

namespace CStruct.Parse

open SymbolTable State

variable {t : SymbolTable} {s s' s'' : State} {name keyword tag type : SymbolId} {k : ScopeId}

/-! ## Roles of symbols -/

section Roles

variable {R : Role → Prop} (htable : ∀ id, R (t.prototype id).role)
include htable

theorem role_prototypeOf (hs : ∀ id, R (s.symbol id).role) (l : Lexeme) :
    R (s.prototypeOf t l).role := by
  have hword : R (s.resolve t l.text).role := by
    unfold State.resolve
    split
    · exact hs _
    · have hself := htable l.text
      rw [SymbolTable.prototype] at hself
      cases hget : t.get? l.text with
      | none => exact htable nameId
      | some p =>
        rw [hget] at hself
        exact hself
  unfold State.prototypeOf State.prototype?
  cases l.kind with
  | name => exact hword
  | type => exact hword
  | number => exact htable literalId
  | operator => exact htable l.text
  | comment => exact htable l.text

theorem role_advance (hs : ∀ id, R (s.symbol id).role) (id : SymbolId) :
    R ((s.advance t).symbol id).role := by
  rcases symbol_advance_cases t s id with hid | hid | ⟨l, hid⟩ | hid
  · rw [hid]
    exact hs id
  · -- what has not been read has the role of nothing
    have hnone := hs s.symbols.size
    rw [symbol_of_size_le (Nat.le_refl _)] at hnone
    rw [hid]
    exact hnone
  · rw [hid]
    exact role_prototypeOf htable hs l
  · rw [hid]
    exact htable endId

/-- The roles of the symbols are those of the table, and that of declared names. -/
theorem Changes.role (hdeclared : R .ofDeclared) (h : Changes t s s')
    (hs : ∀ id, R (s.symbol id).role) : ∀ id, R (s'.symbol id).role := by
  induction h with
  | refl => exact hs
  | @tail s₁ s₂ _ hchange ih =>
    cases hchange with
    | advance => exact role_advance htable ih
    | report => exact ih
    | touch hplain hf =>
      intro id
      rw [Parse.symbol_modifySymbol]
      split
      · rcases hf.role (s₁.symbol id) with hrole | hrole
        · rw [hrole]
          exact ih id
        · rw [hrole]
          exact hdeclared
      · exact ih id
    | bind => exact ih
    | openScope => exact ih
    | closeScope =>
      unfold State.closeScope
      split <;> exact ih

end Roles

theorem role_of_table {R : Role → Prop} (hnone : R {})
    (hall : ∀ entry ∈ cStructs.entries.entries, R entry.2.role) (id : String) :
    R (cStructs.prototype id).role := by
  rw [SymbolTable.prototype]
  cases hget : cStructs.get? id with
  | none => exact hnone
  | some p => exact role_of_get? (R := fun _ role => R role) hall hget

/-- There are no prefix operators in C. -/
theorem nud_of_table (id : String) : (cStructs.prototype id).role.nud ≠ some .prefixed :=
  role_of_table (R := fun role => role.nud ≠ some .prefixed) nofun (by decide) id

/-- What is no word starts no statement. -/
theorem std_of_not_isWord {l : Lexeme} (hl : l.IsSpelled) (hcomment : l.isComment = false)
    (hword : ¬l.IsWord) (s : State) : (s.prototypeOf cStructs l).role.std = none := by
  unfold State.prototypeOf State.prototype?
  cases hkind : l.kind with
  | name => exact absurd (.inl hkind) hword
  | type => exact absurd (.inr hkind) hword
  | number => exact (by decide : (cStructs.prototype literalId).role.std = none)
  | operator =>
    obtain ⟨c, hc, htext⟩ := hl.of_operator hkind
    have hall : Scanner.operators.all
        (fun c => (cStructs.prototype (String.ofList [c])).role.std = none) = true := by decide
    rw [htext]
    exact of_decide_eq_true (List.all_eq_true.1 hall c hc)
  | comment =>
    rw [Lexeme.isComment, hkind] at hcomment
    cases hcomment

theorem Change.pending (h : Change t s s') : s'.pending <:+ s.pending := by
  cases h with
  | advance => exact pending_advance
  | report => exact List.suffix_rfl
  | touch => exact List.suffix_rfl
  | bind => exact List.suffix_rfl
  | openScope => exact List.suffix_rfl
  | closeScope =>
    unfold State.closeScope
    split <;> exact List.suffix_rfl

theorem Changes.pending (h : Changes t s s') : s'.pending <:+ s.pending := by
  induction h with
  | refl => exact List.suffix_rfl
  | tail _ hchange ih => exact hchange.pending.trans ih

namespace State

/-! ## Places -/

/-- In the scope of a declared name, its spelling stands for a declared name. -/
structure Placed (s : State) (b : SymbolId) : Prop where
  declared : ¬s.Undeclared b
  entry : ∀ k, (s.symbol b).scope? = some k →
    ∃ e, (s.scopeAt k).get? (s.symbol b).value = some e ∧ ¬s.Undeclared e

/-- Declared names are operands, typedef names have their places, and the open scopes are there. -/
structure Kept (s : State) : Prop where
  role : ∀ d, ¬s.Undeclared d → (s.symbol d).role = .ofDeclared
  placed : ∀ p b, (s.symbol p).alias? = some b → s.Placed b
  open_lt : ∀ k ∈ s.scope :: s.outer, k < s.scopes.size

/-- The token is no keyword that is spelled like a typedef name of the open scope. -/
def Clear (s : State) : Prop :=
  s.endSymbol? = none → s.current.role.std ≠ none → ∀ p b, (s.symbol p).alias? = some b →
    (s.symbol b).scope? = some s.scope → (s.symbol b).value ≠ s.current.value

/-- A symbol that has just been read is not declared. -/
theorem symbol_advance_of_declared {d : SymbolId} (hd : ¬(s.advance t).Undeclared d) :
    (s.advance t).symbol d = s.symbol d := by
  rcases symbol_advance_cases t s d with hid | hid | ⟨l, hid⟩ | hid
  · exact hid
  · exact absurd (by rw [Undeclared, hid]; rfl) hd
  · exact absurd (by rw [Undeclared, hid]; rfl) hd
  · exact absurd (by rw [Undeclared, hid]; rfl) hd

theorem alias?_advance {p b : SymbolId} (hb : ((s.advance t).symbol p).alias? = some b) :
    (s.symbol p).alias? = some b := by
  rw [← symbol_advance_of_declared (not_undeclared_of_alias? hb)]
  exact hb

/-! ### Operations that take no place away -/

/-- What is declared stays declared, and so does what stands under a name. -/
structure Upholds (s s' : State) : Prop where
  declared : ∀ d, ¬s.Undeclared d → ¬s'.Undeclared d
  value : ∀ d, ¬s.Undeclared d → (s'.symbol d).value = (s.symbol d).value
  scope? : ∀ d, ¬s.Undeclared d → (s'.symbol d).scope? = (s.symbol d).scope?
  entry : ∀ k name e, (s.scopeAt k).get? name = some e → ¬s.Undeclared e →
    ∃ e', (s'.scopeAt k).get? name = some e' ∧ ¬s'.Undeclared e'
  role : ∀ d, ¬s'.Undeclared d →
    (s'.symbol d).role = .ofDeclared ∨ ¬s.Undeclared d ∧ (s'.symbol d).role = (s.symbol d).role
  alias? : ∀ p b, (s'.symbol p).alias? = some b → (s.symbol p).alias? = some b ∨ s'.Placed b
  scopes_le : s.scopes.size ≤ s'.scopes.size

theorem Placed.upheld {b : SymbolId} (hb : s.Placed b) (h : Upholds s s') : s'.Placed b where
  declared := h.declared b hb.declared
  entry := fun k hk => by
    rw [h.scope? b hb.declared] at hk
    rw [h.value b hb.declared]
    obtain ⟨e, he, hdeclared⟩ := hb.entry k hk
    exact h.entry k _ e he hdeclared

theorem Kept.upheld (h : s.Kept) (hupholds : Upholds s s')
    (hopen : ∀ k ∈ s'.scope :: s'.outer, k < s'.scopes.size) : s'.Kept where
  role := fun d hd => by
    rcases hupholds.role d hd with hrole | ⟨hdeclared, hrole⟩
    · exact hrole
    · rw [hrole]
      exact h.role d hdeclared
  placed := fun p b hb => by
    rcases hupholds.alias? p b hb with hold | hnew
    · exact (h.placed p b hold).upheld hupholds
    · exact hnew
  open_lt := hopen

namespace Upholds

theorem of_eq (symbols : s'.symbols = s.symbols) (scopes : s'.scopes = s.scopes) :
    Upholds s s' := by
  have hsymbol (d : SymbolId) : s'.symbol d = s.symbol d := by
    rw [State.symbol, State.symbol, symbols]
  have hdeclared (d : SymbolId) (hd : ¬s.Undeclared d) : ¬s'.Undeclared d := by
    rw [Undeclared, hsymbol]
    exact hd
  exact
    { declared := hdeclared
      value := fun d _ => by rw [hsymbol]
      scope? := fun d _ => by rw [hsymbol]
      entry := fun k name e he hd => ⟨e, by rw [scopeAt, scopes]; exact he, hdeclared e hd⟩
      role := fun d hd => by
        rw [Undeclared, hsymbol] at hd
        exact .inr ⟨hd, by rw [hsymbol]⟩
      alias? := fun p b hb => by
        rw [hsymbol] at hb
        exact .inl hb
      scopes_le := Nat.le_of_eq (congrArg Array.size scopes.symm) }

theorem trans (h : Upholds s s') (h' : Upholds s' s'') : Upholds s s'' where
  declared := fun d hd => h'.declared d (h.declared d hd)
  value := fun d hd => (h'.value d (h.declared d hd)).trans (h.value d hd)
  scope? := fun d hd => (h'.scope? d (h.declared d hd)).trans (h.scope? d hd)
  entry := fun k name e he hd => by
    obtain ⟨e', he', hd'⟩ := h.entry k name e he hd
    exact h'.entry k name e' he' hd'
  role := fun d hd => by
    rcases h'.role d hd with hrole | ⟨hd', hrole'⟩
    · exact .inl hrole
    · rcases h.role d hd' with hrole | ⟨hd, hrole⟩
      · exact .inl (hrole'.trans hrole)
      · exact .inr ⟨hd, hrole'.trans hrole⟩
  alias? := fun p b hb => by
    rcases h'.alias? p b hb with hb' | hnew
    · exact (h.alias? p b hb').imp_right fun hplaced => hplaced.upheld h'
    · exact .inr hnew
  scopes_le := Nat.le_trans h.scopes_le h'.scopes_le

theorem advance (t : SymbolTable) (s : State) : Upholds s (s.advance t) := by
  have hsymbol (d : SymbolId) (hd : ¬s.Undeclared d) : (s.advance t).symbol d = s.symbol d :=
    symbol_advance ((bounds_size s).declared d hd)
  have hdeclared (d : SymbolId) (hd : ¬s.Undeclared d) : ¬(s.advance t).Undeclared d := by
    rw [Undeclared, hsymbol d hd]
    exact hd
  exact
    { declared := hdeclared
      value := fun d hd => by rw [hsymbol d hd]
      scope? := fun d hd => by rw [hsymbol d hd]
      entry := fun k name e he hd => by
        rw [scopeAt, scopes_advance]
        exact ⟨e, he, hdeclared e hd⟩
      role := fun d hd => by
        refine .inr ⟨?_, by rw [symbol_advance_of_declared hd]⟩
        rw [Undeclared, symbol_advance_of_declared hd] at hd
        exact hd
      alias? := fun p b hb => .inl (alias?_advance hb)
      scopes_le := Nat.le_of_eq (congrArg Array.size scopes_advance.symm) }

/-- A change to what is known of a symbol, but for its place. -/
theorem modifySymbol {f : Symbol → Symbol} {id : SymbolId}
    (hdeclared : ∀ x, (f x).declaration? = none ↔ x.declaration? = none)
    (hvalue : ∀ x, (f x).value = x.value) (hscope : ∀ x, (f x).scope? = x.scope?)
    (hrole : ∀ x, (f x).role = x.role)
    (halias : ∀ b, (f (s.symbol id)).alias? = some b →
      (s.symbol id).alias? = some b ∨ s.Placed b) : Upholds s (s.modifySymbol id f) := by
  have hundeclared (d : SymbolId) : (s.modifySymbol id f).Undeclared d ↔ s.Undeclared d := by
    rw [Undeclared, Parse.symbol_modifySymbol]
    split
    · exact hdeclared _
    · exact Iff.rfl
  have hsame {α : Type} {g : Symbol → α} (hg : ∀ x, g (f x) = g x) (d : SymbolId) :
      g ((s.modifySymbol id f).symbol d) = g (s.symbol d) := by
    rw [Parse.symbol_modifySymbol]
    split
    · exact hg _
    · rfl
  -- entries stay, and what they stand for stays declared
  have hentry (k : ScopeId) (name : String) (e : SymbolId)
      (he : (s.scopeAt k).get? name = some e) (hd : ¬s.Undeclared e) :
      ∃ e', ((s.modifySymbol id f).scopeAt k).get? name = some e' ∧
        ¬(s.modifySymbol id f).Undeclared e' :=
    ⟨e, he, fun hnone => hd ((hundeclared e).1 hnone)⟩
  have hplaced {b : SymbolId} (hb : s.Placed b) : (s.modifySymbol id f).Placed b := by
    refine ⟨fun hnone => hb.declared ((hundeclared b).1 hnone), fun k hk => ?_⟩
    rw [hsame hscope] at hk
    rw [hsame hvalue]
    obtain ⟨e, he, hd⟩ := hb.entry k hk
    exact hentry k _ e he hd
  exact
    { declared := fun d hd hnone => hd ((hundeclared d).1 hnone)
      value := fun d _ => hsame hvalue d
      scope? := fun d _ => hsame hscope d
      entry := hentry
      role := fun d hd =>
        .inr ⟨fun hnone => hd ((hundeclared d).2 hnone), hsame (g := fun x => x.role) hrole d⟩
      alias? := fun p b hb => by
        rw [Parse.symbol_modifySymbol] at hb
        split at hb
        · rename_i hid
          rw [hid.1] at hb ⊢
          exact (halias b hb).imp_right hplaced
        · exact .inl hb
      scopes_le := Nat.le_refl _ }

theorem modifyDeclaration {f : Declaration → Declaration} {id : SymbolId}
    (halias : ∀ x b, (f x).alias? = some b → x.alias? = some b ∨ s.Placed b) :
    Upholds s (s.modifyDeclaration id f) := by
  refine modifySymbol (fun x => Option.map_eq_none_iff) (fun _ => rfl) (fun _ => rfl)
    (fun _ => rfl) fun b hb => ?_
  obtain ⟨x, hx, hb⟩ := Option.bind_eq_some_iff.1 hb
  obtain ⟨y, hy, rfl⟩ := Option.map_eq_some_iff.1 hx
  refine (halias y b hb).imp_left fun hb => ?_
  rw [Symbol.alias?, hy]
  exact hb

/-- A symbol becomes a declared name. -/
theorem declare (hname : s.Undeclared name) (type : SymbolId) :
    Upholds s (s.declare name type) := by
  have hsame (d : SymbolId) (hd : ¬s.Undeclared d) :
      (s.declare name type).symbol d = s.symbol d :=
    symbol_modifySymbol_of_ne fun heq => hd (heq ▸ hname)
  have hdeclared (d : SymbolId) (hd : ¬s.Undeclared d) : ¬(s.declare name type).Undeclared d := by
    rw [Undeclared, hsame d hd]
    exact hd
  exact
    { declared := hdeclared
      value := fun d hd => by rw [hsame d hd]
      scope? := fun d hd => by rw [hsame d hd]
      entry := fun k other e he hd => ⟨e, he, hdeclared e hd⟩
      role := fun d hd => by
        rw [Undeclared, State.declare, Parse.symbol_modifySymbol] at hd
        rw [State.declare, Parse.symbol_modifySymbol]
        split
        · exact .inl rfl
        · rename_i hne
          rw [if_neg hne] at hd
          exact .inr ⟨hd, rfl⟩
      alias? := fun p b hb => by
        rw [State.declare, Parse.symbol_modifySymbol] at hb
        split at hb
        · cases hb
        · exact .inl hb
      scopes_le := Nat.le_refl _ }

/-- A declared name takes a place. -/
theorem bind {name : String} {id : SymbolId} (hid : ¬s.Undeclared id) :
    Upholds s (s.bind name id) where
  declared := fun _ hd => hd
  value := fun _ _ => rfl
  scope? := fun _ _ => rfl
  entry := fun k other e he hd => by
    rw [scopeAt_bind]
    split
    · rw [Scope.get?, Scope.insert, Dictionary.get?_insert]
      split
      · exact ⟨id, rfl, hid⟩
      · exact ⟨e, he, hd⟩
    · exact ⟨e, he, hd⟩
  role := fun d hd => .inr ⟨hd, rfl⟩
  alias? := fun p b hb => .inl hb
  scopes_le := Nat.le_of_eq Array.size_modify.symm

theorem openScope (s : State) : Upholds s s.openScope where
  declared := fun _ hd => hd
  value := fun _ _ => rfl
  scope? := fun _ _ => rfl
  entry := fun k name e he hd => by
    rw [scopeAt_openScope]
    split
    · rename_i hk
      -- the new scope has no entries, and neither had the place that it takes
      rw [hk, scopeAt, Array.getD_eq_getD_getElem?, Array.getElem?_eq_none (Nat.le_refl _)] at he
      cases he
    · exact ⟨e, he, hd⟩
  role := fun d hd => .inr ⟨hd, rfl⟩
  alias? := fun p b hb => .inl hb
  scopes_le := by
    rw [State.openScope, Array.size_push]
    exact Nat.le_succ _

theorem closeScope (s : State) : Upholds s s.closeScope := by
  unfold State.closeScope
  split <;> exact of_eq rfl rfl

theorem declared_declare (hlt : name < s.symbols.size) (type : SymbolId) :
    ¬(s.declare name type).Undeclared name := by
  rw [Undeclared, symbol_declare hlt]
  exact Option.some_ne_none _

theorem define (hname : s.Undeclared name) (hlt : name < s.symbols.size) (type : SymbolId) :
    Upholds s (s.define name type) := by
  obtain ⟨ds, heq⟩ := define_eq s name type
  rw [heq]
  have hreport : Upholds s { s with diagnostics := ds } := of_eq rfl rfl
  have hdeclare := hreport.trans (declare (s := { s with diagnostics := ds }) hname type)
  exact hdeclare.trans (bind (declared_declare (s := { s with diagnostics := ds }) hlt type))

/-- A struct learns of a typedef name that has its place. -/
theorem tie (h : ¬s.Undeclared tag → s.Placed name) : Upholds s (s.tie tag name) := by
  refine modifySymbol (fun x => Option.map_eq_none_iff) (fun _ => rfl) (fun _ => rfl)
    (fun _ => rfl) fun b hb => .inr ?_
  obtain ⟨x, hx, hb⟩ := Option.bind_eq_some_iff.1 hb
  obtain ⟨y, hy, rfl⟩ := Option.map_eq_some_iff.1 hx
  cases hb
  exact h fun hnone => Option.some_ne_none y (hy.symm.trans hnone)

theorem declareAlias (hname : s.Undeclared name) (type : SymbolId) :
    Upholds s (s.declareAlias name type) :=
  (declare hname type).trans (modifyDeclaration fun _ _ hb => .inl hb)

theorem symbol_declareAlias (hlt : name < s.symbols.size) (type : SymbolId) :
    (s.declareAlias name type).symbol name =
      s.declaredAs (s.symbol name) { declaredType := type, isAlias := true } := by
  rw [State.declareAlias, State.symbol_modifyDeclaration, if_pos rfl, symbol_declare hlt]
  rfl

/-- A typedef name has its place where something declared stands under its spelling. -/
theorem placed_declareAlias (hlt : name < s.symbols.size) (type : SymbolId) {scopes : Array Scope}
    {e : SymbolId}
    (he : ((State.scopeAt { s.declareAlias name type with scopes } s.scope).get?
      (s.symbol name).value) = some e) (hd : ¬(s.declareAlias name type).Undeclared e) :
    State.Placed { s.declareAlias name type with scopes } name := by
  have hself : State.symbol { s.declareAlias name type with scopes } name =
      s.declaredAs (s.symbol name) { declaredType := type, isAlias := true } :=
    symbol_declareAlias hlt type
  have hdeclared : ¬State.Undeclared { s.declareAlias name type with scopes } name := by
    rw [Undeclared, hself]
    exact Option.some_ne_none _
  refine ⟨hdeclared, fun k hk => ?_⟩
  rw [hself] at hk ⊢
  cases hk
  exact ⟨e, he, hd⟩

/-- The struct of a typedef name may have the place under the common spelling itself. -/
theorem tie_of_local? (hname : s.Undeclared name) (hlt : name < s.symbols.size)
    (hholds : s.local? (s.symbol name).value = some tag) (type : SymbolId) :
    Upholds s ((s.declareAlias name type).tie tag name) :=
  (declareAlias hname type).trans (tie fun htag => placed_declareAlias hlt type hholds htag)

theorem bind_tie (hname : s.Undeclared name) (hlt : name < s.symbols.size)
    (hopen : s.scope < s.scopes.size) (type tag : SymbolId) :
    Upholds s (((s.declareAlias name type).tie tag name).bind (s.symbol name).value name) := by
  have hdeclared : ¬(s.declareAlias name type).Undeclared name := by
    rw [Undeclared, symbol_declareAlias hlt type]
    exact Option.some_ne_none _
  have hbind : Upholds s ((s.declareAlias name type).bind (s.symbol name).value name) :=
    (declareAlias hname type).trans (bind hdeclared)
  have hentry : (((s.declareAlias name type).bind (s.symbol name).value name).scopeAt s.scope).get?
      (s.symbol name).value = some name := by
    have hscope : s.scope = (s.declareAlias name type).scope ∧
        s.scope < (s.declareAlias name type).scopes.size := ⟨rfl, hopen⟩
    rw [scopeAt_bind, if_pos hscope, Scope.get?, Scope.insert, Dictionary.get?_insert, if_pos rfl]
  -- it makes no difference whether the struct is tied to the name before or after
  have htie : Upholds ((s.declareAlias name type).bind (s.symbol name).value name)
      (((s.declareAlias name type).bind (s.symbol name).value name).tie tag name) :=
    tie fun _ => placed_declareAlias hlt type hentry hdeclared
  exact hbind.trans htie

/-- A typedef name takes its place, or its struct has that place. -/
theorem defineAlias (hname : s.Undeclared name) (hlt : name < s.symbols.size)
    (hopen : s.scope < s.scopes.size) (type struct : SymbolId) :
    Upholds s (s.defineAlias name type struct) := by
  obtain ⟨ds, heq⟩ := defineAlias_eq s name type struct
  rw [heq]
  have hreport : Upholds s { s with diagnostics := ds } := of_eq rfl rfl
  dsimp only
  split
  · rename_i hholds
    exact hreport.trans (tie_of_local? (s := { s with diagnostics := ds }) hname hlt hholds type)
  · exact hreport.trans (bind_tie (s := { s with diagnostics := ds }) hname hlt hopen type struct)

end Upholds

end State

end CStruct.Parse
