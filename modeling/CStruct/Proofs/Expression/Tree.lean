import CStruct.Parse.Sound

/-!
# Trees of operators

A `Tree` says how the symbols of an expression are grouped. It is well formed for a bound when
reading by binding powers can have made it: its operators bind more tightly than the bound, and no
operator on the right edge of a left operand lets go of what follows it too late.
-/

namespace CStruct

namespace SymbolTable

/-- The tables that can be built up from operators. -/
inductive Built : SymbolTable → Prop
  | empty : Built {}
  | basic : Built basic
  | symbol {t : SymbolTable} (id : String) (power : Nat) : Built t → Built (t.symbol id power)
  | leftAssoc {t : SymbolTable} (id : String) (power : Nat) : Built t → Built (t.leftAssoc id power)
  | rightAssoc {t : SymbolTable} (id : String) (power : Nat) : Built t → Built (t.rightAssoc id power)
  | prefixed {t : SymbolTable} (id : String) : Built t → Built (t.prefixed id)

theorem nud_modify {t : SymbolTable} {id : String} {f : Role → Role} {nud : NullDenotation}
    (hf : ∀ r, (f r).nud = r.nud ∨ (f r).nud ≠ some nud)
    (h : (t.prototype endId).role.nud ≠ some nud) :
    ((t.modify id f).prototype endId).role.nud ≠ some nud := by
  rw [prototype_modify]
  by_cases hid : endId = id
  · subst hid
    rw [if_pos rfl]
    rcases hf (t.prototype endId).role with hsame | hother
    · show (f (t.prototype endId).role).nud ≠ some nud
      rw [hsame]
      exact h
    · exact hother
  · rw [if_neg hid]
    exact h

theorem nud_symbol {t : SymbolTable} (id : String) (power : Nat)
    (h : (t.prototype endId).role.nud ≠ some .itself) :
    ((t.symbol id power).prototype endId).role.nud ≠ some .itself :=
  nud_modify (fun _ => .inl rfl) h

/-- None of the steps makes an operand of the end. -/
theorem Built.nud_end {t : SymbolTable} (h : t.Built) :
    (t.prototype endId).role.nud ≠ some .itself := by
  induction h with
  | empty => decide
  | basic => decide
  | symbol id power _ ih => exact nud_symbol id power ih
  | leftAssoc id power _ ih => exact nud_modify (fun _ => .inl rfl) (nud_symbol id power ih)
  | rightAssoc id power _ ih => exact nud_modify (fun _ => .inl rfl) (nud_symbol id power ih)
  | prefixed id _ ih =>
    refine nud_modify (fun _ => .inr ?_) (nud_symbol id 0 ih)
    show some NullDenotation.prefixed ≠ some .itself
    decide

end SymbolTable

/-- The binding power below which an operator leaves what follows to its right operand. -/
def Role.rightPower (r : Role) : Nat :=
  match r.led with
  | some .rightAssoc => r.bindingPower - 1
  | _ => r.bindingPower

namespace Parse

/-- How the symbols of an expression are grouped. -/
inductive Tree where
  | leaf (id : SymbolId)
  | prefixed (id : SymbolId) (operand : Tree)
  | binary (left : Tree) (id : SymbolId) (right : Tree)
  deriving DecidableEq

namespace Tree

/-- The symbol that stands for the expression. -/
def top : Tree → SymbolId
  | leaf id => id
  | prefixed id _ => id
  | binary _ id _ => id

/-- The symbols in the order in which they are read. -/
def inorder : Tree → List SymbolId
  | leaf id => [id]
  | prefixed id operand => id :: operand.inorder
  | binary left id right => left.inorder ++ id :: right.inorder

/-- The powers with which the operators on the right edge hold their right operands. -/
def rightPowers (role : SymbolId → Role) : Tree → List Nat
  | leaf _ => []
  | prefixed _ operand => SymbolTable.prefixPower :: operand.rightPowers role
  | binary _ id right => (role id).rightPower :: right.rightPowers role

/-- What binds with `power` takes no operand away from the operators on the right edge. -/
def Leaves (role : SymbolId → Role) (T : Tree) (power : Nat) : Prop :=
  ∀ q ∈ T.rightPowers role, power ≤ q

/-- The tree can have been read with the bound `m`. -/
def WellFormed (role : SymbolId → Role) (m : Nat) : Tree → Prop
  | leaf id => (role id).nud = some .itself
  | prefixed id operand =>
    (role id).nud = some .prefixed ∧ operand.WellFormed role SymbolTable.prefixPower
  | binary left id right =>
    (role id).led.isSome ∧ m < (role id).bindingPower ∧ left.WellFormed role m ∧
      left.Leaves role (role id).bindingPower ∧ right.WellFormed role (role id).rightPower

instance (role : SymbolId → Role) (m : Nat) : (T : Tree) → Decidable (T.WellFormed role m)
  | leaf _ => inferInstanceAs (Decidable (_ = _))
  | prefixed _ operand =>
    have := instDecidableWellFormed role SymbolTable.prefixPower operand
    inferInstanceAs (Decidable (_ ∧ _))
  | binary left id right =>
    have := instDecidableWellFormed role m left
    have := instDecidableWellFormed role (role id).rightPower right
    inferInstanceAs (Decidable (_ ∧ _ ∧ _ ∧ (∀ q ∈ left.rightPowers role, _) ∧ _))

instance (role : SymbolId → Role) (T : Tree) (power : Nat) : Decidable (T.Leaves role power) :=
  inferInstanceAs (Decidable (∀ q ∈ T.rightPowers role, power ≤ q))

end Tree

/-- The symbols are tied together as the tree says, and a leaf is no operator with operands. -/
def State.Links (s : State) : Tree → Prop
  | .leaf id => (s.symbol id).kind ≠ .unary ∧ (s.symbol id).kind ≠ .binary
  | .prefixed id operand =>
    (s.symbol id).kind = .unary ∧ (s.symbol id).first? = some operand.top ∧ s.Links operand
  | .binary left id right =>
    (s.symbol id).kind = .binary ∧ (s.symbol id).first? = some left.top ∧
      (s.symbol id).second? = some right.top ∧ s.Links left ∧ s.Links right

namespace Tree

variable {role : SymbolId → Role} {m : Nat} {T : Tree}

/-- Every symbol of a tree can do something. -/
theorem WellFormed.role_ne (h : T.WellFormed role m) : ∀ id ∈ T.inorder, role id ≠ {} := by
  induction T generalizing m with
  | leaf id =>
    intro id' hid hrole
    rw [inorder, List.mem_singleton] at hid
    subst hid
    rw [WellFormed, hrole] at h
    cases h
  | prefixed id operand ih =>
    intro id' hid hrole
    rw [inorder, List.mem_cons] at hid
    rcases hid with rfl | hid
    · rw [WellFormed, hrole] at h
      cases h.1
    · exact ih h.2 id' hid hrole
  | binary left id right ihl ihr =>
    obtain ⟨hled, -, hleft, -, hright⟩ := h
    intro id' hid hrole
    rw [inorder, List.mem_append, List.mem_cons] at hid
    rcases hid with hid | rfl | hid
    · exact ihl hleft id' hid hrole
    · rw [hrole] at hled
      cases hled
    · exact ihr hright id' hid hrole

end Tree

/-- The symbols tell how they are tied together. -/
theorem State.Links.unique {s : State} {T T' : Tree} (h : s.Links T) (h' : s.Links T')
    (htop : T'.top = T.top) : T' = T := by
  -- the kind of the top symbol tells which way of grouping it is
  induction T generalizing T' with
  | leaf id =>
    cases T' with
    | leaf id' =>
      obtain rfl : id' = id := htop
      rfl
    | prefixed id' operand' =>
      obtain rfl : id' = id := htop
      exact absurd h'.1 h.1
    | binary left' id' right' =>
      obtain rfl : id' = id := htop
      exact absurd h'.1 h.2
  | prefixed id operand ih =>
    obtain ⟨hkind, hfirst, hlinks⟩ := h
    cases T' with
    | leaf id' =>
      obtain rfl : id' = id := htop
      exact absurd hkind h'.1
    | prefixed id' operand' =>
      obtain rfl : id' = id := htop
      obtain ⟨-, hfirst', hlinks'⟩ := h'
      rw [ih hlinks hlinks' (Option.some.inj (hfirst'.symm.trans hfirst))]
    | binary left' id' right' =>
      obtain rfl : id' = id := htop
      exact absurd (hkind.symm.trans h'.1) (by decide)
  | binary left id right ihl ihr =>
    obtain ⟨hkind, hfirst, hsecond, hleft, hright⟩ := h
    cases T' with
    | leaf id' =>
      obtain rfl : id' = id := htop
      exact absurd hkind h'.2
    | prefixed id' operand' =>
      obtain rfl : id' = id := htop
      exact absurd (hkind.symm.trans h'.1) (by decide)
    | binary left' id' right' =>
      obtain rfl : id' = id := htop
      obtain ⟨-, hfirst', hsecond', hleft', hright'⟩ := h'
      rw [ihl hleft hleft' (Option.some.inj (hfirst'.symm.trans hfirst)),
        ihr hright hright' (Option.some.inj (hsecond'.symm.trans hsecond))]

/-- Symbols that no longer change stay tied together. -/
theorem State.Links.of_symbol_eq {s s' : State} {T : Tree} (h : s.Links T)
    (heq : ∀ id ∈ T.inorder, s'.symbol id = s.symbol id) : s'.Links T := by
  induction T with
  | leaf id =>
    unfold State.Links
    rw [heq id (List.mem_singleton_self id)]
    exact h
  | prefixed id operand ih =>
    obtain ⟨hkind, hfirst, hlinks⟩ := h
    unfold State.Links
    rw [heq id List.mem_cons_self]
    exact ⟨hkind, hfirst, ih hlinks fun i hi => heq i (List.mem_cons_of_mem id hi)⟩
  | binary left id right ihl ihr =>
    obtain ⟨hkind, hfirst, hsecond, hleft, hright⟩ := h
    unfold State.Links
    rw [heq id (List.mem_append_right _ List.mem_cons_self)]
    exact ⟨hkind, hfirst, hsecond, ihl hleft fun i hi => heq i (List.mem_append_left _ hi),
      ihr hright fun i hi => heq i (List.mem_append_right _ (List.mem_cons_of_mem id hi))⟩

end Parse

end CStruct
