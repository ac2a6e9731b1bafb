import CStruct.Symbol.Basic
import Mathlib.Logic.Relation

/-!
# The forest of operators

Symbols are tied together as the operators of expressions and their operands. `Forest` says that the
ties make trees in which the symbols stand in order: what is in a left operand stands before the
operator, and what is in a right operand, or in the operand of a prefix operator, stands behind it.
A forest stays one when a symbol that stands alone becomes an operator over trees that stand alone.
-/

namespace CStruct

open Relation

/-- A symbol has two operands when it is a binary operator, one when it is a prefix operator, and
none otherwise. -/
def Symbol.Fits (x : Symbol) : Prop :=
  match x.kind with
  | .binary => x.first?.isSome ∧ x.second?.isSome
  | .unary => x.first?.isSome ∧ x.second? = none
  | _ => x.first? = none ∧ x.second? = none

/-- The symbol has no operands. -/
structure Symbol.Alone (x : Symbol) : Prop where
  first? : x.first? = none
  second? : x.second? = none

namespace Symbol

variable {x y : Symbol}

theorem Alone.fits (h : x.Alone) (hunary : x.kind ≠ .unary) (hbinary : x.kind ≠ .binary) :
    x.Fits := by
  unfold Fits
  split
  · contradiction
  · contradiction
  · exact ⟨h.first?, h.second?⟩

theorem Fits.alone (h : x.Fits) (hunary : x.kind ≠ .unary) (hbinary : x.kind ≠ .binary) :
    x.Alone := by
  unfold Fits at h
  split at h
  · contradiction
  · contradiction
  · exact ⟨h.1, h.2⟩

/-! ### The kind tells the operands, and the operands the kind -/

theorem Fits.binary_iff (h : x.Fits) :
    x.first?.isSome ∧ x.second?.isSome ↔ x.kind = .binary := by
  unfold Fits at h
  split at h <;> simp_all

theorem Fits.unary_iff (h : x.Fits) : x.first?.isSome ∧ x.second? = none ↔ x.kind = .unary := by
  unfold Fits at h
  split at h
  · simp_all [Option.isSome_iff_ne_none]
  · simp_all
  · simp_all

theorem Fits.alone_iff (h : x.Fits) :
    x.first? = none ∧ x.second? = none ↔ x.kind ≠ .binary ∧ x.kind ≠ .unary := by
  unfold Fits at h
  split at h
  · simp_all [Option.isSome_iff_ne_none]
  · simp_all [Option.isSome_iff_ne_none]
  · simp_all

/-- Only the kind and the operands matter. -/
theorem Fits.congr (h : x.Fits) (hkind : y.kind = x.kind) (hfirst : y.first? = x.first?)
    (hsecond : y.second? = x.second?) : y.Fits := by
  unfold Fits at *
  rw [hkind, hfirst, hsecond]
  exact h

end Symbol

/-! ## Ties -/

section Ties

variable (symbol : SymbolId → Symbol)

/-- The second symbol is an operand of the first. -/
def HasOperand (p x : SymbolId) : Prop := (symbol p).first? = some x ∨ (symbol p).second? = some x

/-- The symbols in the tree under a symbol, which is one of them. -/
abbrev InTree : SymbolId → SymbolId → Prop := ReflTransGen (HasOperand symbol)

/-- The symbol is an operand of no other. -/
def IsRoot (x : SymbolId) : Prop := ∀ p, ¬HasOperand symbol p x

/-- The ties make trees whose symbols stand in order. -/
structure Forest : Prop where
  fits : ∀ p, (symbol p).Fits
  left : ∀ p l r, (symbol p).first? = some l → (symbol p).second? = some r →
    ∀ x, InTree symbol l x → x < p
  right : ∀ p r, (symbol p).second? = some r → ∀ x, InTree symbol r x → p < x
  operand : ∀ p o, (symbol p).first? = some o → (symbol p).second? = none →
    ∀ x, InTree symbol o x → p < x
  parent : ∀ p q x, HasOperand symbol p x → HasOperand symbol q x → p = q

end Ties

variable {symbol symbol' : SymbolId → Symbol} {p q x y l r : SymbolId}

theorem not_hasOperand_of_alone (h : (symbol p).Alone) : ¬HasOperand symbol p x := by
  intro hoperand
  unfold HasOperand at hoperand
  rw [h.first?, h.second?] at hoperand
  rcases hoperand with hfirst | hsecond
  · cases hfirst
  · cases hsecond

namespace Forest

/-- No symbol stands in the tree of one of its operands. -/
theorem ne_of_inTree (h : Forest symbol) (hoperand : HasOperand symbol p x)
    (hy : InTree symbol x y) : y ≠ p := by
  rcases hoperand with hfirst | hsecond
  · cases hsecond : (symbol p).second? with
    | none => exact Nat.ne_of_gt (h.operand p x hfirst hsecond y hy)
    | some r => exact Nat.ne_of_lt (h.left p x r hfirst hsecond y hy)
  · exact Nat.ne_of_gt (h.right p x hsecond y hy)

/-- The ties do not lead in a circle. -/
theorem acyclic (h : Forest symbol) (p : SymbolId) : ¬TransGen (HasOperand symbol) p p := by
  intro hcircle
  obtain ⟨x, hoperand, htree⟩ := TransGen.head'_iff.1 hcircle
  exact h.ne_of_inTree hoperand htree rfl

/-- No symbol is both operands of an operator. -/
theorem first?_ne_second? (h : Forest symbol) (hfirst : (symbol p).first? = some x) :
    (symbol p).second? ≠ some x := by
  intro hsecond
  exact Nat.lt_asymm (h.left p x x hfirst hsecond x .refl) (h.right p x hsecond x .refl)

end Forest

/-! ## Other things than ties change -/

/-- The same symbols are tied together. -/
structure SameTies (symbol symbol' : SymbolId → Symbol) : Prop where
  first? : ∀ p, (symbol' p).first? = (symbol p).first?
  second? : ∀ p, (symbol' p).second? = (symbol p).second?

namespace SameTies

variable (h : SameTies symbol symbol')
include h

theorem hasOperand_iff : HasOperand symbol' p x ↔ HasOperand symbol p x := by
  unfold HasOperand
  rw [h.first?, h.second?]

theorem inTree_iff : InTree symbol' p x ↔ InTree symbol p x := by
  have heq : HasOperand symbol' = HasOperand symbol :=
    funext fun p => funext fun x => propext h.hasOperand_iff
  unfold InTree
  rw [heq]

theorem isRoot_iff : IsRoot symbol' x ↔ IsRoot symbol x :=
  forall_congr' fun _ => not_congr h.hasOperand_iff

theorem forest (hforest : Forest symbol) (hfits : ∀ p, (symbol' p).Fits) : Forest symbol' where
  fits := hfits
  left := fun p l r hfirst hsecond x hx =>
    hforest.left p l r (h.first? p ▸ hfirst) (h.second? p ▸ hsecond) x (h.inTree_iff.1 hx)
  right := fun p r hsecond x hx =>
    hforest.right p r (h.second? p ▸ hsecond) x (h.inTree_iff.1 hx)
  operand := fun p o hfirst hsecond x hx =>
    hforest.operand p o (h.first? p ▸ hfirst) (h.second? p ▸ hsecond) x (h.inTree_iff.1 hx)
  parent := fun p q x hp hq => hforest.parent p q x (h.hasOperand_iff.1 hp) (h.hasOperand_iff.1 hq)

end SameTies

/-! ## A symbol becomes an operator -/

/-- The symbol `p`, which is an operand of no other, gets operands. -/
structure Joins (p : SymbolId) (symbol symbol' : SymbolId → Symbol) : Prop where
  same : ∀ q, q ≠ p → symbol' q = symbol q
  root : IsRoot symbol p

namespace Joins

variable (h : Joins p symbol symbol')
include h

theorem hasOperand_iff (hq : q ≠ p) : HasOperand symbol' q x ↔ HasOperand symbol q x := by
  unfold HasOperand
  rw [h.same q hq]

/-- All trees stay as they are, but for the one of the operator. -/
theorem inTree_iff (hq : q ≠ p) : InTree symbol' q x ↔ InTree symbol q x := by
  have hne {y z : SymbolId} (hyz : HasOperand symbol y z) : z ≠ p := fun heq =>
    h.root y (heq ▸ hyz)
  constructor
  · intro hx
    suffices InTree symbol q x ∧ x ≠ p from this.1
    induction hx with
    | refl => exact ⟨.refl, hq⟩
    | tail _ hstep ih =>
      have hstep := (h.hasOperand_iff ih.2).1 hstep
      exact ⟨ih.1.tail hstep, hne hstep⟩
  · intro hx
    suffices InTree symbol' q x ∧ x ≠ p from this.1
    induction hx with
    | refl => exact ⟨.refl, hq⟩
    | tail _ hstep ih => exact ⟨ih.1.tail ((h.hasOperand_iff ih.2).2 hstep), hne hstep⟩

/-- What is neither the operator nor one of its operands is a root if it was one. -/
theorem isRoot (hx : IsRoot symbol x) (hoperands : ¬HasOperand symbol' p x) :
    IsRoot symbol' x := by
  intro q hq
  by_cases hqp : q = p
  · exact hoperands (hqp ▸ hq)
  · exact hx q ((h.hasOperand_iff hqp).1 hq)

/-- A forest stays one when roots become the operands, in order. -/
theorem forest (hforest : Forest symbol) (hfits : (symbol' p).Fits)
    (hroots : ∀ y, HasOperand symbol' p y → IsRoot symbol y)
    (hleft : ∀ l r, (symbol' p).first? = some l → (symbol' p).second? = some r →
      ∀ x, InTree symbol l x → x < p)
    (hright : ∀ r, (symbol' p).second? = some r → ∀ x, InTree symbol r x → p < x)
    (hoperand : ∀ o, (symbol' p).first? = some o → (symbol' p).second? = none →
      ∀ x, InTree symbol o x → p < x) : Forest symbol' := by
  have hne {y q : SymbolId} (hy : HasOperand symbol q y) : y ≠ p := fun heq =>
    h.root q (heq ▸ hy)
  -- a tree below another operator is one of those that there were before
  refine { fits := ?fits, left := ?left, right := ?right, operand := ?operand, parent := ?parent }
  case fits =>
    intro q
    by_cases hq : q = p
    · rw [hq]
      exact hfits
    · rw [h.same q hq]
      exact hforest.fits q
  case left =>
    intro q l r hfirst hsecond x hx
    by_cases hq : q = p
    · subst hq
      have hl : l ≠ q := Nat.ne_of_lt (hleft l r hfirst hsecond l .refl)
      exact hleft l r hfirst hsecond x ((h.inTree_iff hl).1 hx)
    · rw [h.same q hq] at hfirst hsecond
      exact hforest.left q l r hfirst hsecond x ((h.inTree_iff (hne (.inl hfirst))).1 hx)
  case right =>
    intro q r hsecond x hx
    by_cases hq : q = p
    · subst hq
      have hr : r ≠ q := Nat.ne_of_gt (hright r hsecond r .refl)
      exact hright r hsecond x ((h.inTree_iff hr).1 hx)
    · rw [h.same q hq] at hsecond
      exact hforest.right q r hsecond x ((h.inTree_iff (hne (.inr hsecond))).1 hx)
  case operand =>
    intro q o hfirst hsecond x hx
    by_cases hq : q = p
    · subst hq
      have ho : o ≠ q := Nat.ne_of_gt (hoperand o hfirst hsecond o .refl)
      exact hoperand o hfirst hsecond x ((h.inTree_iff ho).1 hx)
    · rw [h.same q hq] at hfirst hsecond
      exact hforest.operand q o hfirst hsecond x ((h.inTree_iff (hne (.inl hfirst))).1 hx)
  case parent =>
    intro q q' x hx hx'
    by_cases hq : q = p <;> by_cases hq' : q' = p
    · rw [hq, hq']
    · exact absurd ((h.hasOperand_iff hq').1 hx') (hroots x (hq ▸ hx) q')
    · exact absurd ((h.hasOperand_iff hq).1 hx) (hroots x (hq' ▸ hx') q)
    · exact hforest.parent q q' x ((h.hasOperand_iff hq).1 hx) ((h.hasOperand_iff hq').1 hx')

end Joins

end CStruct
