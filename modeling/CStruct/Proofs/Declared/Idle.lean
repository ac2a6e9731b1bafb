import CStruct.Proofs.Declared.Steady
import CStruct.Proofs.Scopes.Framing

/-!
# Reading without declaring

A part of a source changes only the symbols from its first one on: it `Spares` what stands before
it. An expression declares nothing either. It makes operators of its own symbols and reserves some
of them, so that it is `Idle` as far as declarations are concerned.
-/

namespace CStruct.Parse

open SymbolTable State

variable {t : SymbolTable} {s s' s'' : State} {n n' : SymbolId} {id : SymbolId}

/-- A symbol after an expression: it may be an operator now, or reserved. -/
structure Handled (x y : Symbol) : Prop where
  retouched : Retouched x y
  reserved : x.reserved = true → y.reserved = true

theorem Handled.refl (x : Symbol) : Handled x x := ⟨.refl x, fun h => h⟩

theorem Handled.trans {x y z : Symbol} (h : Handled x y) (h' : Handled y z) : Handled x z :=
  ⟨h.retouched.trans h'.retouched, fun hx => h'.reserved (h.reserved hx)⟩

namespace State

/-- The symbol stands under its own spelling as a keyword. -/
structure Reserved (s : State) (name : String) (id : SymbolId) : Prop where
  value : (s.symbol id).value = name
  reserved : (s.symbol id).reserved = true
  undeclared : s.Undeclared id

theorem Reserved.of_handled {name : String} (h : s.Reserved name id)
    (hid : Handled (s.symbol id) (s'.symbol id)) : s'.Reserved name id where
  value := by
    rw [hid.retouched]
    exact h.value
  reserved := hid.reserved h.reserved
  undeclared := hid.retouched.declaration?.trans h.undeclared

/-! ## What stands before -/

/-- Between the two states, the symbols before `n` stay as they are, no symbol loses the prototype
that it was made from, and the scopes keep their places. -/
structure Spares (n : SymbolId) (s s' : State) : Prop where
  size_le : s.symbols.size ≤ s'.symbols.size
  symbol : ∀ i < n, i < s.symbols.size → s'.symbol i = s.symbol i
  id : ∀ i < s.symbols.size, (s'.symbol i).id = (s.symbol i).id
  scopes_le : s.scopes.size ≤ s'.scopes.size
  parent? : ∀ k < s.scopes.size, (s'.scopeAt k).parent? = (s.scopeAt k).parent?
  endSymbol? : s'.endSymbol? = none → s.endSymbol? = none

namespace Spares

theorem of_eq (symbols : s'.symbols = s.symbols) (scopes : s'.scopes = s.scopes)
    (endSymbol? : s'.endSymbol? = s.endSymbol?) : Spares n s s' where
  size_le := Nat.le_of_eq (congrArg Array.size symbols.symm)
  symbol := fun i _ _ => by rw [State.symbol, State.symbol, symbols]
  id := fun i _ => by rw [State.symbol, State.symbol, symbols]
  scopes_le := Nat.le_of_eq (congrArg Array.size scopes.symm)
  parent? := fun k _ => by rw [scopeAt, scopeAt, scopes]
  endSymbol? := fun he => endSymbol?.symm.trans he

theorem refl (n : SymbolId) (s : State) : Spares n s s := of_eq rfl rfl rfl

/-- What comes later may only spare more. -/
theorem trans (h : Spares n s s') (h' : Spares n' s' s'') (hle : n ≤ n') : Spares n s s'' where
  size_le := Nat.le_trans h.size_le h'.size_le
  symbol := fun i hn hi =>
    (h'.symbol i (Nat.lt_of_lt_of_le hn hle) (Nat.lt_of_lt_of_le hi h.size_le)).trans
      (h.symbol i hn hi)
  id := fun i hi => (h'.id i (Nat.lt_of_lt_of_le hi h.size_le)).trans (h.id i hi)
  scopes_le := Nat.le_trans h.scopes_le h'.scopes_le
  parent? := fun k hk =>
    (h'.parent? k (Nat.lt_of_lt_of_le hk h.scopes_le)).trans (h.parent? k hk)
  endSymbol? := fun he => h.endSymbol? (h'.endSymbol? he)

theorem advance (n : SymbolId) (t : SymbolTable) (s : State) : Spares n s (s.advance t) where
  size_le := size_le_advance
  symbol := fun _ _ hi => symbol_advance hi
  id := fun _ hi => by rw [symbol_advance hi]
  scopes_le := Nat.le_of_eq (congrArg Array.size scopes_advance.symm)
  parent? := fun k _ => by rw [scopeAt, scopeAt, scopes_advance]
  endSymbol? := fun he => by
    rcases advance_cases t s with ⟨l, ls, -, hadds⟩ | ⟨-, hnone, -⟩ | ⟨-, -, hadds⟩
    · exact hadds.endSymbol.symm.trans he
    · exact hnone
    · exact hadds.endSymbol.symm.trans he

theorem modifySymbol (h : n ≤ id) {f : Symbol → Symbol} (hf : ∀ x, (f x).id = x.id) :
    Spares n s (s.modifySymbol id f) where
  size_le := Nat.le_of_eq Array.size_modify.symm
  symbol := fun _ hn _ => symbol_modifySymbol_of_ne (Nat.ne_of_lt (Nat.lt_of_lt_of_le hn h))
  id := fun i _ => by
    rw [Parse.symbol_modifySymbol]
    split
    · exact hf _
    · rfl
  scopes_le := Nat.le_refl _
  parent? := fun _ _ => rfl
  endSymbol? := fun he => he

theorem declare (h : n ≤ id) (type : SymbolId) : Spares n s (s.declare id type) :=
  modifySymbol h fun _ => rfl

theorem modifyDeclaration (h : n ≤ id) (f : Declaration → Declaration) :
    Spares n s (s.modifyDeclaration id f) :=
  modifySymbol h fun _ => rfl

theorem bind (n : SymbolId) (s : State) (name : String) (id : SymbolId) :
    Spares n s (s.bind name id) where
  size_le := Nat.le_refl _
  symbol := fun _ _ _ => rfl
  id := fun _ _ => rfl
  scopes_le := Nat.le_of_eq Array.size_modify.symm
  parent? := fun k _ => by
    rw [scopeAt_bind]
    split <;> rfl
  endSymbol? := fun he => he

theorem openScope (n : SymbolId) (s : State) : Spares n s s.openScope where
  size_le := Nat.le_refl _
  symbol := fun _ _ _ => rfl
  id := fun _ _ => rfl
  scopes_le := by
    rw [State.openScope, Array.size_push]
    exact Nat.le_succ _
  parent? := fun k hk => by rw [scopeAt_openScope, if_neg (Nat.ne_of_lt hk)]
  endSymbol? := fun he => he

theorem closeScope (n : SymbolId) (s : State) : Spares n s s.closeScope := by
  unfold State.closeScope
  split
  · exact refl n s
  · exact of_eq rfl rfl rfl

end Spares

end State

/-! ## Nothing is declared -/

/-- Between the two states, symbols from `n` on are handled and no symbol is declared. New entries
of scopes are keywords. -/
structure Idle (n : SymbolId) (s s' : State) : Prop extends Spares n s s' where
  steady : s'.Steady
  scope : s'.scope = s.scope
  outer : s'.outer = s.outer
  scopes_size : s'.scopes.size = s.scopes.size
  handled : ∀ i < s.symbols.size, Handled (s.symbol i) (s'.symbol i)
  undeclared : ∀ i, s.symbols.size ≤ i → s'.Undeclared i
  entry : ∀ k name id, (s'.scopeAt k).get? name = some id →
    (s.scopeAt k).get? name = some id ∨ n ≤ id ∧ s'.Reserved name id

namespace Idle

theorem refl (n : SymbolId) (h : s.Steady) : Idle n s s where
  toSpares := .refl n s
  steady := h
  scope := rfl
  outer := rfl
  scopes_size := rfl
  handled := fun _ _ => .refl _
  undeclared := fun _ hi => h.undeclared_of_le (Nat.le_trans (Nat.le_of_lt h.token_lt) hi)
  entry := fun _ _ _ hk => .inl hk

theorem trans (h : Idle n s s') (h' : Idle n' s' s'') (hle : n ≤ n') : Idle n s s'' where
  toSpares := h.toSpares.trans h'.toSpares hle
  steady := h'.steady
  scope := h'.scope.trans h.scope
  outer := h'.outer.trans h.outer
  scopes_size := h'.scopes_size.trans h.scopes_size
  handled := fun i hi => (h.handled i hi).trans (h'.handled i (Nat.lt_of_lt_of_le hi h.size_le))
  undeclared := fun i hi => by
    by_cases hi' : i < s'.symbols.size
    · exact (h'.handled i hi').retouched.declaration?.trans (h.undeclared i hi)
    · exact h'.undeclared i (Nat.le_of_not_lt hi')
  entry := fun k name id hk => by
    rcases h'.entry k name id hk with hk | ⟨hid, hreserved⟩
    · apply (h.entry k name id hk).imp_right
      rintro ⟨hid, hreserved⟩
      -- an entry stands before the token, so that it lasts as a keyword
      have hlt := Nat.lt_trans (h.steady.entry_lt k name id hk) h.steady.token_lt
      exact ⟨hid, hreserved.of_handled (h'.handled id hlt)⟩
    · exact .inr ⟨Nat.le_trans hle hid, hreserved⟩

theorem undeclared_of (h : Idle n s s') {i : SymbolId} (hi : s.Undeclared i) :
    s'.Undeclared i := by
  by_cases hlt : i < s.symbols.size
  · exact (h.handled i hlt).retouched.declaration?.trans hi
  · exact h.undeclared i (Nat.le_of_not_lt hlt)

/-! ### Steps -/

theorem advance (n : SymbolId) (h : s.Steady) (t : SymbolTable) : Idle n s (s.advance t) where
  toSpares := .advance n t s
  steady := h.advance t
  scope := scope_advance.1
  outer := scope_advance.2
  scopes_size := congrArg Array.size scopes_advance
  handled := fun i hi => by
    rw [symbol_advance hi]
    exact .refl _
  undeclared := fun i hi => by
    apply (h.advance t).undeclared_of_le
    -- the token is among the symbols that were there, or just behind them
    cases he : s.endSymbol? with
    | none =>
      rw [token_advance he]
      exact hi
    | some e =>
      obtain ⟨cs, heq⟩ := h.advance_of_some t he
      rw [heq]
      exact Nat.le_trans (Nat.le_of_lt h.token_lt) hi
  entry := fun k name id hk => by
    rw [scopeAt, scopes_advance] at hk
    exact .inl hk

theorem diagnostics (n : SymbolId) (h : s.Steady) (ds : Diagnostics) :
    Idle n s { s with diagnostics := ds } where
  toSpares := .of_eq rfl rfl rfl
  steady := h.reportAt ds
  scope := rfl
  outer := rfl
  scopes_size := rfl
  handled := fun _ _ => .refl _
  undeclared := (refl n h).undeclared
  entry := fun _ _ _ hk => .inl hk

theorem report (n : SymbolId) (h : s.Steady) (id : SymbolId) (problem : Problem) :
    Idle n s (s.report id problem) :=
  diagnostics n h _

theorem touch (h : s.Steady) (hn : n ≤ id) (hid : id < s.token) {f : Symbol → Symbol}
    (hf : ∀ x, Handled x (f x)) : Idle n s (s.modifySymbol id f) where
  toSpares := .modifySymbol hn fun x => by rw [(hf x).retouched]
  steady := h.modifySymbol hid f
  scope := rfl
  outer := rfl
  scopes_size := rfl
  handled := fun i _ => by
    rw [Parse.symbol_modifySymbol]
    split
    · exact hf _
    · exact .refl _
  undeclared := fun i hi => by
    rw [Undeclared, symbol_modifySymbol_of_ne]
    · exact (refl n h).undeclared i hi
    · exact Nat.ne_of_gt (Nat.lt_of_lt_of_le (Nat.lt_trans hid h.token_lt) hi)
  entry := fun _ _ _ hk => .inl hk

theorem bind (h : s.Steady) {name : String} (hn : n ≤ id) (hid : id < s.token)
    (hreserved : s.Reserved name id) : Idle n s (s.bind name id) where
  toSpares := .bind n s name id
  steady := h.of_symbol_eq rfl rfl rfl rfl rfl fun k other i hk => by
    rcases entry_bind hk with ⟨rfl, -⟩ | hold
    · exact hid
    · exact h.entry_lt k other i hold
  scope := rfl
  outer := rfl
  scopes_size := Array.size_modify
  handled := fun _ _ => .refl _
  undeclared := (refl n h).undeclared
  entry := fun k other i hk => by
    rcases entry_bind hk with ⟨rfl, rfl⟩ | hold
    · exact .inr ⟨hn, hreserved.value, hreserved.reserved, hreserved.undeclared⟩
    · exact .inl hold

/-- A symbol that has been passed is reserved. -/
theorem reserve (h : s.Steady) (hn : n ≤ id) (hpassed : s.Passed id) : Idle n s (s.reserve id) := by
  rcases reserve_cases s id with heq | ⟨ds, -, heq⟩
  · rw [heq]
    exact refl n h
  · rw [heq]
    have hreport := diagnostics n h ds
    have hmark := hreport.trans
      (touch (f := ({ · with reserved := true })) hreport.steady hn hpassed.lt
        fun _ => ⟨rfl, fun _ => rfl⟩) (Nat.le_refl n)
    apply hmark.trans (bind hmark.steady hn hpassed.lt ?_) (Nat.le_refl n)
    -- what is bound has just been marked
    have hself := symbol_modifySymbol_self (s := { s with diagnostics := ds })
      (Nat.lt_trans hpassed.lt h.token_lt) ({ · with reserved := true })
    exact ⟨by rw [hself]; rfl, by rw [hself], by rw [Undeclared, hself]; exact hpassed.undeclared⟩

theorem expect (n : SymbolId) (h : s.Steady) (t : SymbolTable) (id : String) :
    Idle n s (s.expect t id) := by
  unfold State.expect
  split
  · exact advance n h t
  · have hreport := report n h s.token (.expected id s.current.value)
    exact hreport.trans (advance n hreport.steady t) (Nat.le_refl n)

end Idle

/-! ## Expressions -/

/-- Before the end, the token is passed. -/
theorem State.Steady.passed (h : s.Steady) (he : s.endSymbol? = none) (t : SymbolTable) :
    (s.advance t).Passed s.token where
  lt := by
    rw [token_advance he]
    exact h.token_lt
  undeclared := by
    rw [Undeclared, symbol_advance h.token_lt]
    exact h.undeclared

theorem State.Spares.token_le (h : Spares n s s') (hs : s.Steady) (hs' : s'.Steady) :
    s.token ≤ s'.token := by
  have hsize := h.size_le
  rw [hs.size, hs'.size] at hsize
  exact Nat.le_of_succ_le_succ hsize

theorem Idle.passed (h : Idle n s s') (hid : s.Passed id) (hs : s.Steady) : s'.Passed id :=
  ⟨Nat.lt_of_lt_of_le hid.lt (h.token_le hs h.steady), h.undeclared_of hid.undeclared⟩

section Reading

variable {fuel m : Nat} {left top : SymbolId}

/-- A prefix operator is passed and takes the operand that follows. -/
theorem idle_nullDenotation (h : s.Steady)
    (hread : ∀ m s top s', s.Steady → expression t fuel m s = some (top, s') →
      Idle s.token s s')
    (hnull : nullDenotation (expression t fuel) s.token (s.advance t) = some s') :
    Idle s.token s s' := by
  have hadvance := Idle.advance s.token h t
  rcases nullDenotation_cases hnull with ⟨-, rfl⟩ | ⟨hnud, operand, s₂, hoperand, rfl⟩ | ⟨-, rfl⟩
  · exact hadvance
  · -- the end takes no operand, for then the expression would have no end
    have he : s.endSymbol? = none := by
      by_contra he
      apply ((h.ended he (·.role)).of_nud (ended_expression_operators t _ fuel).1 hnull).2
      rw [symbol_advance h.token_lt] at hnud
      exact hnud
    have hpassed := h.passed he t
    have hreserve := Idle.reserve hadvance.steady (Nat.le_refl s.token) hpassed
    have hpassed₂ := hreserve.passed hpassed hadvance.steady
    have hrun := hread _ _ _ _ hreserve.steady hoperand
    have hlt := (hrun.passed hpassed₂ hreserve.steady).lt
    have hrun := (hadvance.trans hreserve (Nat.le_refl _)).trans hrun (Nat.le_of_lt hpassed₂.lt)
    exact hrun.trans (.touch hrun.steady (Nat.le_refl _) hlt fun _ => ⟨rfl, id⟩) (Nat.le_refl _)
  · exact hadvance.trans (.report _ hadvance.steady _ _) (Nat.le_refl _)

theorem idle_leftDenotation (h : s.Steady) (he : s.endSymbol? = none)
    (hread : ∀ m s top s', s.Steady → expression t fuel m s = some (top, s') →
      Idle s.token s s')
    (hleft : leftDenotation (expression t fuel) s.token left (s.advance t) = some s') :
    Idle s.token s s' := by
  have hadvance := Idle.advance s.token h t
  rcases leftDenotation_cases hleft with ⟨-, right, s₂, hright, rfl⟩ | ⟨-, rfl⟩
  · have hpassed := h.passed he t
    have hoperand := hread _ _ _ _ hadvance.steady hright
    have hrun := hadvance.trans hoperand (Nat.le_of_lt hpassed.lt)
    have hlt := (hoperand.passed hpassed hadvance.steady).lt
    exact hrun.trans (.touch hrun.steady (Nat.le_refl _) hlt fun _ => ⟨rfl, id⟩) (Nat.le_refl _)
  · exact hadvance.trans (.report _ hadvance.steady _ _) (Nat.le_refl _)

theorem idle_expression_operators (t : SymbolTable) (fuel : Nat) :
    (∀ m s top s', s.Steady → expression t fuel m s = some (top, s') → Idle s.token s s') ∧
    (∀ m left s top s', s.Steady → operators t fuel m left s = some (top, s') →
      Idle s.token s s') := by
  induction fuel using Nat.strongRecOn with
  | ind fuel ih =>
    refine ⟨fun m s top s' hs h => ?_, fun m left s top s' hs h => ?_⟩
    · obtain ⟨n, s₁, rfl, hnull, hoperators⟩ := expression_cases h
      obtain ⟨ihexpression, ihoperators⟩ := ih n (Nat.lt_succ_self n)
      have hfirst := idle_nullDenotation hs ihexpression hnull
      exact hfirst.trans (ihoperators _ _ _ _ _ hfirst.steady hoperators)
        (hfirst.token_le hs hfirst.steady)
    · -- an operator that binds is not the end, for that would bind over and over
      have he (hpower : m < s.current.role.bindingPower) : s.endSymbol? = none := by
        by_contra he
        have hle := ((ended_expression_operators t _ fuel).2 _ _ _ _ _ h (hs.ended he (·.role))).2
        exact Nat.not_lt_of_le hle hpower
      rcases operators_cases h with ⟨-, heq⟩ | ⟨hpower, n, s₁, rfl, hleft, hoperators⟩
      · cases heq
        exact .refl _ hs
      · obtain ⟨ihexpression, ihoperators⟩ := ih n (Nat.lt_succ_self n)
        have hfirst := idle_leftDenotation hs (he hpower) ihexpression hleft
        exact hfirst.trans (ihoperators _ _ _ _ _ hfirst.steady hoperators)
          (hfirst.token_le hs hfirst.steady)

/-- Reading an expression declares nothing and spares what stands before the expression. -/
theorem idle_expression (hs : s.Steady) (h : expression t fuel m s = some (top, s')) :
    Idle s.token s s' :=
  (idle_expression_operators t fuel).1 m s top s' hs h

end Reading

end CStruct.Parse
