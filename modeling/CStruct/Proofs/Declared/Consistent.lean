import CStruct.Proofs.Declared.Listed

/-!
# Consistent states

In a state that is `Consistent`, all declarations, entries and scopes agree. Each operation on the
symbols and the scopes keeps a state consistent, in so far as it may leave a name that is still
being declared.
-/

namespace CStruct.Parse

open SymbolTable State

variable {t : SymbolTable} {s s' : State} {n d e id type : SymbolId} {k : ScopeId}
  {std : StatementDenotation} {x : Declaration} {P Q : SymbolId → Prop}

namespace State

/-- The names, the entries of scopes and the scopes themselves agree. The names that `P` tells are
still being declared. -/
structure Consistent (P : SymbolId → Prop) (s : State) : Prop where
  declarations : s.Declarations P
  indexed : s.Indexed
  nested : s.Nested
  inside : s.outer ≠ [] → s.scope ≠ 0

namespace Consistent

theorem mono (h : s.Consistent P) (hle : ∀ d, P d → Q d) : s.Consistent Q where
  declarations := fun d hd => (h.declarations d hd).imp_left (hle d)
  indexed := h.indexed
  nested := h.nested
  inside := h.inside

theorem settle (h : s.Consistent fun d => d = e ∨ P d) (he : s.Made e) : s.Consistent P where
  declarations := h.declarations.settle he
  indexed := h.indexed
  nested := h.nested
  inside := h.inside

theorem entry_lt (h : s.Consistent P) {name : String} (hid : (s.scopeAt k).get? name = some id) :
    id < s.symbols.size := by
  by_contra hle
  have hentered := h.indexed k name id hid
  have hdefault := symbol_of_size_le (Nat.le_of_not_lt hle)
  rcases hentered.meaning with ⟨-, -, hdeclared⟩ | ⟨hreserved, -⟩
  · exact hle ((bounds_size s).declared id hdeclared)
  · rw [hdefault] at hreserved
    cases hreserved

/-! ## Operations -/

theorem of_idle (h : s.Consistent P) (hs : s.Steady) (hidle : Idle s.token s s') :
    s'.Consistent P where
  declarations := h.declarations.of_idle hs hidle
  indexed := h.indexed.of_idle hs hidle
  nested := h.nested.of_idle hidle
  inside := by
    rw [hidle.outer, hidle.scope]
    exact h.inside

theorem diagnostics (h : s.Consistent P) (ds : Diagnostics) :
    Consistent P { s with diagnostics := ds } where
  declarations := h.declarations.of_symbols rfl
  indexed := h.indexed.of_entered rfl fun _ _ _ _ hid => hid.of_symbol_eq rfl
  nested := h.nested.of_symbols rfl rfl rfl rfl
  inside := h.inside

theorem bind (h : s.Consistent P) {name : String} (hid : s.Entered s.scope name id) :
    (s.bind name id).Consistent P where
  declarations := h.declarations.of_symbols rfl
  indexed := h.indexed.bind hid
  nested := h.nested.bind name id
  inside := h.inside

/-- A name is declared that no scope has an entry for yet. -/
theorem declare (h : s.Consistent P) (hd : d < s.symbols.size) (hbare : s.Bare d)
    (hnew : ∀ k name, (s.scopeAt k).get? name ≠ some d) (type : SymbolId) :
    (s.declare d type).Consistent fun e => e = d ∨ P e where
  declarations := h.declarations.alter (alters_declare s d type) hbare
  indexed := h.indexed.declare type hnew
  nested := h.nested.declare hd type
  inside := h.inside

theorem modifyDeclaration (h : s.Consistent P) (hbare : s.Bare d) {f : Declaration → Declaration}
    (hf : ∀ x, (f x).innerScope? = x.innerScope?) :
    (s.modifyDeclaration d f).Consistent fun e => e = d ∨ P e where
  declarations := h.declarations.alter (alters_modifyDeclaration s d _) hbare
  indexed := h.indexed.modifyDeclaration d f
  nested := h.nested.modifyDeclaration d hf
  inside := h.inside

/-- A struct gets its body, which lies inside the scope of the struct and is closed. -/
theorem setBody (h : s.Consistent P) (hbare : s.Bare d) (hk : 0 < k) (hlt : k < s.scopes.size)
    (hparent : (s.scopeAt k).parent? = (s.symbol d).scope?) (hclosed : k ∉ s.scope :: s.outer)
    (hnew : ∀ e, (s.symbol e).innerScope? ≠ some k) :
    (s.setBody d k).Consistent fun e => e = d ∨ P e where
  declarations := h.declarations.alter (alters_modifyDeclaration s d _) hbare
  indexed := h.indexed.modifyDeclaration d _
  nested := h.nested.setBody hk hlt hparent hclosed hnew
  inside := h.inside

theorem openScope (h : s.Consistent P) : s.openScope.Consistent P where
  declarations := h.declarations.of_symbols rfl
  indexed := h.indexed.openScope
  nested := h.nested.openScope
  inside := fun _ => Nat.ne_of_gt
    (Nat.zero_lt_of_lt (h.nested.open_lt s.scope List.mem_cons_self))

theorem closeScope (h : s.Consistent P)
    (hinside : s.closeScope.outer ≠ [] → s.closeScope.scope ≠ 0) : s.closeScope.Consistent P where
  declarations := by
    unfold State.closeScope
    split
    · exact h.declarations
    · exact h.declarations.of_symbols rfl
  indexed := h.indexed.closeScope
  nested := h.nested.closeScope
  inside := hinside

/-- A name that has been dealt with is passed. It counts as being declared until then, because what
stands behind it is not known before. -/
theorem pass (h : s.Consistent P) (he : s.endSymbol? = none)
    (hd : ∀ d, s.symbols.size ≤ d + 1 → ¬s.Undeclared d → P d) (t : SymbolTable) :
    (s.advance t).Steady ∧ (s.advance t).Consistent P := by
  have hsteady : (s.advance t).Steady := steady_advance t he fun k name id hk => h.entry_lt hk
  have hspares := Spares.advance s.symbols.size t s
  have hundeclared : ∀ d, s.Undeclared d → (s.advance t).Undeclared d := by
    intro d hd
    by_cases hlt : d < s.symbols.size
    · rw [Undeclared, symbol_advance hlt]
      exact hd
    · apply hsteady.undeclared_of_le
      rw [token_advance he]
      exact Nat.le_of_not_lt hlt
  refine ⟨hsteady, ?_, ?_, ?_, ?_⟩
  · -- all but the last name have their next symbol already, which decides how they were declared
    apply h.declarations.of_spares (bounds_size s) hspares hundeclared
    intro d hdeclared
    rcases Nat.lt_or_ge (d + 1) s.symbols.size with hlt | hle
    · exact .inr hlt
    · exact .inl (hd d hle hdeclared)
  · apply h.indexed.of_entered scopes_advance
    exact fun k name id hk hid => hid.of_symbol_eq (symbol_advance (h.entry_lt hk))
  · refine h.nested.of_innerScope? (congrArg Array.size scopes_advance) hspares.parent? ?_ ?_
    · rw [scope_advance.1, scope_advance.2]
      exact fun _ hk => hk
    · intro d k hk
      by_cases hlt : d < s.symbols.size
      · rw [symbol_advance hlt] at hk ⊢
        exact ⟨hk, rfl⟩
      · have hnone : s.Undeclared d := by
          rw [Undeclared, symbol_of_size_le (Nat.le_of_not_lt hlt)]
          rfl
        rw [Nested.innerScope?_eq_none (hundeclared d hnone)] at hk
        cases hk
  · rw [scope_advance.1, scope_advance.2]
    exact h.inside

end Consistent

/-! ## Defining a name -/

section Defining

variable (s d type)

theorem alters_define : Alters d s (s.define d type) := by
  obtain ⟨ds, heq⟩ := define_eq s d type
  rw [heq]
  have hdeclare := alters_declare { s with diagnostics := ds } d type
  exact ⟨hdeclare.symbol, hdeclare.id⟩

theorem scope_define : (s.define d type).scope = s.scope ∧ (s.define d type).outer = s.outer ∧
    (s.define d type).scopes.size = s.scopes.size := by
  obtain ⟨ds, heq⟩ := define_eq s d type
  rw [heq]
  exact ⟨rfl, rfl, Array.size_modify⟩

variable {s d type}

theorem spares_define (hn : n ≤ d) : Spares n s (s.define d type) := by
  obtain ⟨ds, heq⟩ := define_eq s d type
  rw [heq]
  have hreport : Spares n s { s with diagnostics := ds } := .of_eq rfl rfl rfl
  have hdeclare := hreport.trans (.declare hn type) (Nat.le_refl n)
  exact hdeclare.trans (.bind n _ _ _) (Nat.le_refl n)

theorem isDeclared_define (hd : d < s.symbols.size) (hlt : type < d)
    (hkeyword : s.IsKeyword type std) :
    (s.define d type).IsDeclared d s.scope std { declaredType := type } := by
  obtain ⟨ds, heq⟩ := define_eq s d type
  rw [heq]
  have hdeclare := isDeclared_declare (s := { s with diagnostics := ds }) hd hlt
    ⟨hkeyword.kind, hkeyword.std⟩
  exact hdeclare.transfer rfl fun hkeyword => hkeyword.of_symbol_eq rfl

theorem Steady.define (h : s.Steady) (hd : d < s.token) : (s.define d type).Steady := by
  obtain ⟨ds, heq⟩ := define_eq s d type
  rw [heq]
  have hdeclare : (State.declare { s with diagnostics := ds } d type).Steady :=
    (h.reportAt ds).modifySymbol hd _
  refine hdeclare.of_symbol_eq rfl rfl rfl rfl rfl fun k name id hk => ?_
  rcases entry_bind hk with ⟨rfl, -⟩ | hold
  · exact hd
  · exact hdeclare.entry_lt k name id hold

theorem Consistent.define (h : s.Consistent P) (hd : d < s.symbols.size)
    (hkind : (s.symbol d).kind = .name) (hundeclared : s.Undeclared d)
    (hnew : ∀ k name, (s.scopeAt k).get? name ≠ some d) (type : SymbolId) :
    (s.define d type).Consistent fun e => e = d ∨ P e := by
  obtain ⟨ds, heq⟩ := define_eq s d type
  rw [heq]
  have hdeclare := (h.diagnostics ds).declare hd (bare_of_undeclared hkind hundeclared) hnew type
  have hself : (State.declare { s with diagnostics := ds } d type).symbol d = _ := symbol_declare hd
  apply hdeclare.bind ⟨by rw [hself]; rfl, .inl ⟨by rw [hself]; rfl, by rw [hself]; rfl, ?_⟩⟩
  rw [Undeclared, hself]
  exact Option.some_ne_none _

end Defining

end State

end CStruct.Parse
