import CStruct.Proofs.Declared.Idle
import CStruct.Proofs.Declared.Kept
import CStruct.Proofs.Parse.Trace

/-!
# What all reading keeps

What is there before something is read, and how much of it is still there behind it, whatever the
table: the scopes around the open one, the symbols and how they are spelled, the account of the
source, and the roles that a table gives.
-/

namespace CStruct.Parse

open SymbolTable State

variable {t : SymbolTable} {s s' s'' : State} {keyword name : SymbolId} {fuel : Nat}

namespace State

/-- A name is declared, and its scope is this one. -/
def DeclaredIn (s : State) (d : SymbolId) (k : ScopeId) : Prop :=
  ¬s.Undeclared d ∧ (s.symbol d).scope? = some k

/-- Between the two states, the open scope stays open, no other scope changes that was there, and
names are declared in the open scope and in new ones only. -/
structure Within (s s' : State) : Prop where
  scope : s'.scope = s.scope
  outer : s'.outer = s.outer
  scopes_le : s.scopes.size ≤ s'.scopes.size
  scopeAt : ∀ k < s.scopes.size, k ≠ s.scope → s'.scopeAt k = s.scopeAt k
  declaredIn : ∀ d k, s'.DeclaredIn d k → s.DeclaredIn d k ∨ k = s.scope ∨
    s.scopes.size ≤ k ∧ k < s'.scopes.size

namespace Within

/-- A change to the symbols alone. -/
theorem of_scopes_eq (scopes : s'.scopes = s.scopes) (scope : s'.scope = s.scope)
    (outer : s'.outer = s.outer)
    (hdeclared : ∀ d k, s'.DeclaredIn d k → s.DeclaredIn d k ∨ k = s.scope) :
    s.Within s' where
  scope := scope
  outer := outer
  scopes_le := by rw [scopes]
  scopeAt := fun k _ _ => by rw [State.scopeAt, State.scopeAt, scopes]
  declaredIn := fun d k hk => (hdeclared d k hk).imp_right .inl

theorem refl (s : State) : s.Within s := of_scopes_eq rfl rfl rfl fun _ _ => .inl

theorem trans (h : s.Within s') (h' : s'.Within s'') : s.Within s'' where
  scope := h'.scope.trans h.scope
  outer := h'.outer.trans h.outer
  scopes_le := Nat.le_trans h.scopes_le h'.scopes_le
  scopeAt := fun k hk hne =>
    (h'.scopeAt k (Nat.lt_of_lt_of_le hk h.scopes_le) (by rw [h.scope]; exact hne)).trans
      (h.scopeAt k hk hne)
  declaredIn := fun d k hk => by
    rcases h'.declaredIn d k hk with hold | hopen | ⟨hle, hlt⟩
    · refine (h.declaredIn d k hold).imp_right (.imp_right fun ⟨hle, hlt⟩ => ?_)
      exact ⟨hle, Nat.lt_of_lt_of_le hlt h'.scopes_le⟩
    · exact .inr (.inl (hopen.trans h.scope))
    · exact .inr (.inr ⟨Nat.le_trans h.scopes_le hle, hlt⟩)

/-- Behind a block, all scopes are as they were before it. -/
theorem scopeAt_block (h : s.openScope.Within s') {k : ScopeId} (hk : k < s.scopes.size) :
    s'.scopeAt k = s.scopeAt k := by
  rw [h.scopeAt k (by rw [State.openScope, Array.size_push]; exact Nat.lt_succ_of_lt hk)
    (Nat.ne_of_lt hk), scopeAt_openScope, if_neg (Nat.ne_of_lt hk)]

theorem closeScope_eq (h : s.openScope.Within s') :
    s'.closeScope = { s' with scope := s.scope, outer := s.outer } := by
  rw [State.closeScope, h.outer]
  rfl

theorem block (h : s.openScope.Within s') : s.Within s'.closeScope := by
  have hlt : s.scopes.size < s'.scopes.size := by
    have hle := h.scopes_le
    rw [State.openScope, Array.size_push] at hle
    exact hle
  rw [h.closeScope_eq]
  refine ⟨rfl, rfl, Nat.le_of_lt hlt, fun k hk _ => h.scopeAt_block hk, fun d k hk => ?_⟩
  rcases h.declaredIn d k hk with hold | hopen | ⟨hle, hlt'⟩
  · exact .inl hold
  · exact .inr (.inr ⟨Nat.le_of_eq hopen.symm, by rw [hopen]; exact hlt⟩)
  · rw [State.openScope, Array.size_push] at hle
    exact .inr (.inr ⟨Nat.le_of_succ_le hle, hlt'⟩)

end Within

end State

theorem Move.within (h : Move t s s') : s.Within s' := by
  cases h with
  | advance =>
    refine .of_scopes_eq scopes_advance scope_advance.1 scope_advance.2 fun d k hk => .inl ?_
    have hsame := symbol_advance_of_declared hk.1
    rw [DeclaredIn, Undeclared, hsame] at hk
    exact hk
  | report => exact .of_scopes_eq rfl rfl rfl fun _ _ => .inl
  | edit id hf =>
    refine .of_scopes_eq rfl rfl rfl fun d k hk => .inl ?_
    rw [DeclaredIn, Undeclared, symbol_modifySymbol] at hk
    split at hk
    · rw [hf.scope?] at hk
      exact ⟨fun hnone => hk.1 (hf.declaration? _ hnone), hk.2⟩
    · exact hk
  | declare name type =>
    refine .of_scopes_eq rfl rfl rfl fun d k hk => ?_
    rw [DeclaredIn, Undeclared, State.declare, symbol_modifySymbol] at hk
    split at hk
    · exact .inr (Option.some.inj hk.2).symm
    · exact .inl hk
  | bind name id =>
    refine ⟨rfl, rfl, Nat.le_of_eq Array.size_modify.symm, fun k _ hne => ?_, fun _ _ => .inl⟩
    rw [scopeAt_bind, if_neg fun hopen => hne hopen.1]

theorem Trace.within (h : Trace t s s') : s.Within s' := by
  induction h with
  | refl => exact .refl _
  | step _ hmove ih => exact ih.trans hmove.within
  | block _ _ ih ihbody => exact ih.trans ihbody.block

/-- No symbol is taken away, and none loses the prototype that it was made from. -/
theorem Move.spares (h : Move t s s') : Spares 0 s s' := by
  cases h with
  | advance => exact .advance 0 t s
  | report => exact .of_eq rfl rfl rfl
  | edit id hf => exact .modifySymbol (Nat.zero_le id) hf.id
  | declare name type => exact .declare (Nat.zero_le name) type
  | bind name id => exact .bind 0 s name id

theorem Trace.spares (h : Trace t s s') : Spares 0 s s' := by
  induction h with
  | refl => exact .refl 0 _
  | step _ hmove ih => exact ih.trans hmove.spares (Nat.le_refl 0)
  | @block _ s₁ s₂ _ _ ih ihbody =>
    have hinside := (Spares.openScope 0 s₁).trans ihbody (Nat.le_refl 0)
    exact (ih.trans hinside (Nat.le_refl 0)).trans (.closeScope 0 s₂) (Nat.le_refl 0)

/-- The account of the source stays as it is. -/
theorem Move.conserves (h : Move t s s') : s.Conserves s' := by
  cases h with
  | advance => exact conserves_advance t s
  | report => exact conserves_of_eq rfl rfl rfl rfl rfl
  | edit id hf => exact conserves_modifySymbol hf.value hf.span s id
  | declare name type =>
    refine conserves_modifySymbol ?_ ?_ s name
    · exact fun _ => rfl
    · exact fun _ => rfl
  | bind => exact conserves_of_eq rfl rfl rfl rfl rfl

theorem Trace.conserves (h : Trace t s s') : s.Conserves s' := by
  induction h with
  | refl s => exact .refl s
  | step _ hmove ih => exact ih.trans hmove.conserves
  | @block _ s₁ s₂ _ _ ih ihbody =>
    have hopen : s₁.Conserves s₁.openScope := conserves_of_eq rfl rfl rfl rfl rfl
    exact ((ih.trans hopen).trans ihbody).trans (conserves_closeScope s₂)

/-- How a symbol is spelled does not change. -/
theorem Trace.value (h : Trace t s s') {id : SymbolId} (hid : id < s.symbols.size) :
    (s'.symbol id).value = (s.symbol id).value :=
  congrArg Prod.fst (h.conserves.symbol hid (Nat.lt_of_lt_of_le hid h.spares.size_le))

/-- Where a symbol stands does not change. -/
theorem Trace.span (h : Trace t s s') {id : SymbolId} (hid : id < s.symbols.size) :
    (s'.symbol id).span = (s.symbol id).span :=
  congrArg Prod.snd (h.conserves.symbol hid (Nat.lt_of_lt_of_le hid h.spares.size_le))

/-- What is still to be read was still to be read before. -/
theorem Move.pending (h : Move t s s') : s'.pending <:+ s.pending := by
  cases h with
  | advance => exact pending_advance
  | report => exact List.suffix_rfl
  | edit => exact List.suffix_rfl
  | declare => exact List.suffix_rfl
  | bind => exact List.suffix_rfl

theorem Trace.pending (h : Trace t s s') : s'.pending <:+ s.pending := by
  induction h with
  | refl => exact List.suffix_rfl
  | step _ hmove ih => exact hmove.pending.trans ih
  | block _ _ ih ihbody =>
    have hinside := ihbody.trans ih
    unfold State.closeScope
    split <;> exact hinside

section Roles

variable {R : Role → Prop} (htable : ∀ id, R (t.prototype id).role) (hdeclared : R .ofDeclared)
include htable hdeclared

theorem Move.role (h : Move t s s') (hs : ∀ id, R (s.symbol id).role) :
    ∀ id, R (s'.symbol id).role := by
  cases h with
  | advance => exact role_advance htable hs
  | report => exact hs
  | edit id hf =>
    intro i
    rw [symbol_modifySymbol]
    split
    · rw [hf.role]
      exact hs i
    · exact hs i
  | declare name type =>
    intro i
    rw [State.declare, symbol_modifySymbol]
    split
    · exact hdeclared
    · exact hs i
  | bind => exact hs

/-- Every symbol has a role of the table, or that of declared names. -/
theorem Trace.role (h : Trace t s s') (hs : ∀ id, R (s.symbol id).role) :
    ∀ id, R (s'.symbol id).role := by
  induction h with
  | refl => exact hs
  | step _ hmove ih => exact hmove.role htable hdeclared (ih hs)
  | @block s₁ s₂ s₃ _ _ ih ihbody =>
    have hinside := ihbody (ih hs)
    unfold State.closeScope
    split <;> exact hinside

end Roles

end CStruct.Parse
