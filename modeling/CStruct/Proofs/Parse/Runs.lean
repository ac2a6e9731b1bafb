import CStruct.Proofs.Expression.Grouping
import CStruct.Proofs.Parse.Steps
import Mathlib.Logic.Relation

/-!
# Expressions are runs

Reading an expression is a run of its steps, which take no declaration away. The main statement is
`steps_expression`.
-/

namespace CStruct.Parse

open SymbolTable State

variable {t : SymbolTable} {s s' s'' : State} {id : SymbolId}

/-! ## Symbols in an expression -/

/-- `y` is `x` with another kind, other operands or as a reserved word. -/
def Retouched (x y : Symbol) : Prop :=
  y = { x with reserved := y.reserved, kind := y.kind, first? := y.first?, second? := y.second? }

namespace Retouched

variable {x y z : Symbol}

theorem refl (x : Symbol) : Retouched x x := rfl

theorem trans (h : Retouched x y) (h' : Retouched y z) : Retouched x z := by
  unfold Retouched at *
  rw [h', h]

theorem role (h : Retouched x y) : y.role = x.role := by rw [h]

theorem declaration? (h : Retouched x y) : y.declaration? = x.declaration? := by rw [h]

end Retouched

theorem size_le_advance : s.symbols.size ≤ (s.advance t).symbols.size := by
  unfold State.advance
  dsimp only
  split
  · unfold State.readEnd
    split
    · exact Nat.le_refl _
    · exact (Array.size_push _).symm ▸ Nat.le_succ _
  · unfold State.read
    dsimp only
    split <;> exact (Array.size_push _).symm ▸ Nat.le_succ _

theorem retouched_modifySymbol {f : Symbol → Symbol} (hid : id < s.symbols.size)
    (hf : ∀ x, Retouched x (f x)) (other : SymbolId) :
    Retouched (s.symbol id) ((s.modifySymbol other f).symbol id) := by
  by_cases heq : id = other
  · subst heq
    rw [symbol_modifySymbol_self hid]
    exact hf _
  · rw [symbol_modifySymbol_of_ne heq]
    exact .refl _

/-- No step in an expression takes a declaration or a role away. -/
theorem ExpressionStep.retouched (h : ExpressionStep t s s') (hid : id < s.symbols.size) :
    Retouched (s.symbol id) (s'.symbol id) ∧ s.symbols.size ≤ s'.symbols.size := by
  have htouch (other : SymbolId) (f : Symbol → Symbol) (hf : ∀ x, Retouched x (f x)) :
      Retouched (s.symbol id) ((s.modifySymbol other f).symbol id) ∧
        s.symbols.size ≤ (s.modifySymbol other f).symbols.size :=
    ⟨retouched_modifySymbol hid hf other, Nat.le_of_eq Array.size_modify.symm⟩
  cases h with
  | advance =>
    rw [symbol_advance hid]
    exact ⟨.refl _, size_le_advance⟩
  | report => exact ⟨.refl _, Nat.le_refl _⟩
  | @reserve keyword =>
    rcases reserve_cases s keyword with heq | ⟨ds, -, heq⟩
    · rw [heq]
      exact ⟨.refl _, Nat.le_refl _⟩
    · rw [heq]
      exact htouch keyword ({ · with reserved := true }) fun _ => rfl
  | @operand operator o =>
    exact htouch operator ({ · with first? := some o, kind := .unary }) fun _ => rfl
  | @operands operator l r =>
    exact htouch operator ({ · with first? := some l, second? := some r, kind := .binary })
      fun _ => rfl

/-- The steps of an expression, one after the other. -/
abbrev ExpressionRun (t : SymbolTable) : State → State → Prop :=
  Relation.ReflTransGen (ExpressionStep t)

namespace ExpressionRun

theorem trans (h : ExpressionRun t s s') (h' : ExpressionRun t s' s'') : ExpressionRun t s s'' :=
  Relation.ReflTransGen.trans h h'

theorem run (h : ExpressionRun t s s') : Run t s s' := by
  induction h with
  | refl => exact .refl s
  | tail _ hstep ih => exact .step ih (.expression hstep)

theorem retouched (h : ExpressionRun t s s') (hid : id < s.symbols.size) :
    Retouched (s.symbol id) (s'.symbol id) := by
  suffices Retouched (s.symbol id) (s'.symbol id) ∧ s.symbols.size ≤ s'.symbols.size from this.1
  induction h with
  | refl => exact ⟨.refl _, Nat.le_refl _⟩
  | tail _ hstep ih =>
    obtain ⟨hsame, hle⟩ := hstep.retouched (Nat.lt_of_lt_of_le hid ih.2)
    exact ⟨ih.1.trans hsame, Nat.le_trans ih.2 hle⟩

theorem passed (h : ExpressionRun t s s') (hs : s.Poised t) (hid : s.Passed id) :
    s'.Passed id := by
  have hsame := h.retouched (Nat.lt_trans hid.lt hs.sound.token_lt)
  refine ⟨Nat.lt_of_lt_of_le hid.lt (hs.run h.run).token_le, ?_⟩
  rw [Undeclared, hsame.declaration?]
  exact hid.undeclared

end ExpressionRun

/-- Before the end, the token can be passed. -/
theorem State.Poised.passed (h : s.Poised t) (he : s.endSymbol? = none) :
    (s.advance t).Passed s.token := by
  refine ⟨?_, ?_⟩
  · rw [token_advance he]
    exact h.sound.token_lt
  · rw [Undeclared, symbol_advance h.sound.token_lt]
    exact h.undeclared

theorem State.Passed.advance (h : s.Passed id) (hs : s.Poised t) :
    (s.advance t).Passed id :=
  ExpressionRun.passed (.single (.advance s)) hs h

theorem State.Passed.reserve {keyword : SymbolId} (h : s.Passed id) (hs : s.Poised t)
    (hkeyword : s.Passed keyword) : (s.reserve keyword).Passed id :=
  ExpressionRun.passed (t := t) (.single (.reserve hkeyword)) hs h

/-! ## Expressions -/

/-- What starts an expression is passed; a prefix operator is no longer at the end. -/
theorem steps_nullDenotation (ht : t.Stops) (h : s.Poised t) {read : ExpressionReader}
    (hread : ∀ m s top s', s.Poised t → read m s = some (top, s') → ExpressionRun t s s')
    (hnull : nullDenotation read s.token (s.advance t) = some s') : ExpressionRun t s s' := by
  have hadvance : ExpressionRun t s (s.advance t) := .single (.advance s)
  rcases nullDenotation_cases hnull with ⟨-, rfl⟩ | ⟨hnud, operand, s₂, hoperand, rfl⟩ | ⟨-, rfl⟩
  · exact hadvance
  · have he : s.endSymbol? = none := by
      by_contra he
      rw [symbol_advance h.sound.token_lt] at hnud
      exact (h.sound.current he).nud ht hnud
    have hpassed := h.passed (t := t) he
    have hs₁ := h.advance.poised
    have hreserve : ExpressionRun t (s.advance t) ((s.advance t).reserve s.token) :=
      .single (.reserve hpassed)
    have hs₂ := (hs₁.run hreserve.run).poised
    have hrun := hread _ _ _ _ hs₂ hoperand
    have hpassed₂ := (hreserve.trans hrun).passed hs₁ hpassed
    exact ((hadvance.trans hreserve).trans hrun).tail (.operand operand hpassed₂)
  · exact hadvance.tail (.report _ _ _)

theorem steps_leftDenotation (h : s.Poised t) {read : ExpressionReader}
    (hread : ∀ m s top s', s.Poised t → read m s = some (top, s') → ExpressionRun t s s')
    (he : s.endSymbol? = none) {left : SymbolId}
    (hleft : leftDenotation read s.token left (s.advance t) = some s') : ExpressionRun t s s' := by
  have hadvance : ExpressionRun t s (s.advance t) := .single (.advance s)
  rcases leftDenotation_cases hleft with ⟨-, right, s₂, hright, rfl⟩ | ⟨-, rfl⟩
  · have hs₁ := h.advance.poised
    have hrun := hread _ _ _ _ hs₁ hright
    have hpassed := hrun.passed hs₁ (h.passed he)
    exact (hadvance.trans hrun).tail (.operands left right hpassed)
  · exact hadvance.tail (.report _ _ _)

theorem steps_expression_operators (ht : t.Stops) (fuel : Nat) :
    (∀ m s top s', s.Poised t → expression t fuel m s = some (top, s') → ExpressionRun t s s') ∧
    (∀ m left s top s', s.Poised t → operators t fuel m left s = some (top, s') →
      ExpressionRun t s s') := by
  induction fuel using Nat.strongRecOn with
  | ind fuel ih =>
    refine ⟨fun m s top s' hs h => ?_, fun m left s top s' hs h => ?_⟩
    · obtain ⟨n, s₁, rfl, hnull, hoperators⟩ := expression_cases h
      obtain ⟨ihexpression, ihoperators⟩ := ih n (Nat.lt_succ_self n)
      have hrun := steps_nullDenotation ht hs ihexpression hnull
      exact hrun.trans (ihoperators _ _ _ _ _ (hs.run hrun.run).poised hoperators)
    · rcases operators_cases h with ⟨-, heq⟩ | ⟨hpower, n, s₁, rfl, hleft, hoperators⟩
      · cases heq
        exact .refl
      · obtain ⟨ihexpression, ihoperators⟩ := ih n (Nat.lt_succ_self n)
        have he := endSymbol?_of_power ht hs.sound hpower
        have hrun := steps_leftDenotation hs ihexpression he hleft
        exact hrun.trans (ihoperators _ _ _ _ _ (hs.run hrun.run).poised hoperators)

theorem steps_expression (ht : t.Stops) (hs : s.Poised t) {fuel m : Nat} {top : SymbolId}
    (h : expression t fuel m s = some (top, s')) : ExpressionRun t s s' :=
  (steps_expression_operators ht fuel).1 m s top s' hs h

end CStruct.Parse
