import CStruct.Proofs.Expression.Ahead
import CStruct.Proofs.Expression.Same

/-!
# How an expression grows

Reading an expression ties its symbols together step by step. `Grown` is the invariant of what has
been tied together so far: it agrees with passing the symbols one by one, and what was read before
the expression has not changed. There is one lemma for each way in which a tree is made.
-/

namespace CStruct.Parse

open SymbolTable State

/-! ## One step of reading -/

theorem nullDenotation_cases {read : ExpressionReader} {token : SymbolId} {s s₁ : State}
    (h : nullDenotation read token s = some s₁) :
    ((s.symbol token).role.nud = some .itself ∧ s₁ = s) ∨
      ((s.symbol token).role.nud = some .prefixed ∧ ∃ operand s₂,
        read prefixPower (s.reserve token) = some (operand, s₂) ∧
          s₁ = s₂.setOperand token operand) ∨
      ((s.symbol token).role.nud = none ∧ s₁ = s.report token .undefined) := by
  unfold nullDenotation at h
  split at h
  · rename_i hnud
    cases h
    exact .inl ⟨hnud, rfl⟩
  · rename_i hnud
    obtain ⟨⟨operand, s₂⟩, hread, rfl⟩ := Option.map_eq_some_iff.1 h
    exact .inr (.inl ⟨hnud, operand, s₂, hread, rfl⟩)
  · rename_i hnud
    cases h
    exact .inr (.inr ⟨hnud, rfl⟩)

theorem leftDenotation_cases {read : ExpressionReader} {token left : SymbolId} {s s₁ : State}
    (h : leftDenotation read token left s = some s₁) :
    ((s.symbol token).role.led.isSome ∧ ∃ right s₂,
      read (s.symbol token).role.rightPower s = some (right, s₂) ∧
        s₁ = s₂.setOperands token left right) ∨
      ((s.symbol token).role.led = none ∧ s₁ = s.report token .missingOperator) := by
  unfold leftDenotation at h
  dsimp only at h
  split at h
  · rename_i hled
    obtain ⟨⟨right, s₂⟩, hread, rfl⟩ := Option.map_eq_some_iff.1 h
    exact .inl ⟨by rw [hled]; rfl, right, s₂, by rw [Role.rightPower, hled]; exact hread, rfl⟩
  · rename_i hled
    obtain ⟨⟨right, s₂⟩, hread, rfl⟩ := Option.map_eq_some_iff.1 h
    exact .inl ⟨by rw [hled]; rfl, right, s₂, by rw [Role.rightPower, hled]; exact hread, rfl⟩
  · rename_i hled
    cases h
    exact .inr ⟨hled, rfl⟩

theorem nullDenotation_of_itself {read : ExpressionReader} {token : SymbolId} {s s₁ : State}
    (h : nullDenotation read token s = some s₁) (hnud : (s.symbol token).role.nud = some .itself) :
    s₁ = s := by
  rcases nullDenotation_cases h with ⟨-, heq⟩ | ⟨hnud', -⟩ | ⟨hnud', -⟩
  · exact heq
  · rw [hnud] at hnud'
    cases hnud'
  · rw [hnud] at hnud'
    cases hnud'

theorem nullDenotation_of_prefixed {read : ExpressionReader} {token : SymbolId} {s s₁ : State}
    (h : nullDenotation read token s = some s₁)
    (hnud : (s.symbol token).role.nud = some .prefixed) :
    ∃ operand s₂, read prefixPower (s.reserve token) = some (operand, s₂) ∧
      s₁ = s₂.setOperand token operand := by
  rcases nullDenotation_cases h with ⟨hnud', -⟩ | ⟨-, hread⟩ | ⟨hnud', -⟩
  · rw [hnud] at hnud'
    cases hnud'
  · exact hread
  · rw [hnud] at hnud'
    cases hnud'

theorem leftDenotation_of_led {read : ExpressionReader} {token left : SymbolId} {s s₁ : State}
    (h : leftDenotation read token left s = some s₁) (hled : (s.symbol token).role.led.isSome) :
    ∃ right s₂, read (s.symbol token).role.rightPower s = some (right, s₂) ∧
      s₁ = s₂.setOperands token left right := by
  rcases leftDenotation_cases h with ⟨-, hread⟩ | ⟨hled', -⟩
  · exact hread
  · rw [hled'] at hled
    cases hled

variable {t : SymbolTable} {fuel m : Nat} {s : State} {r : SymbolId × State}

theorem expression_cases (h : expression t fuel m s = some r) :
    ∃ n s₁, fuel = n + 1 ∧
      nullDenotation (expression t n) s.token (s.advance t) = some s₁ ∧
      operators t n m s.token s₁ = some r := by
  cases fuel with
  | zero =>
    rw [expression] at h
    cases h
  | succ n =>
    rw [expression] at h
    split at h
    · cases h
    · rename_i s₁ hnull
      exact ⟨n, s₁, rfl, hnull, h⟩

theorem operators_cases {left : SymbolId} (h : operators t fuel m left s = some r) :
    (s.current.role.bindingPower ≤ m ∧ r = (left, s)) ∨
      (m < s.current.role.bindingPower ∧ ∃ n s₁, fuel = n + 1 ∧
        leftDenotation (expression t n) s.token left (s.advance t) = some s₁ ∧
        operators t n m s.token s₁ = some r) := by
  rw [operators.eq_def] at h
  split at h
  · rename_i hpower
    cases fuel with
    | zero => cases h
    | succ n =>
      dsimp only at h
      split at h
      · cases h
      · rename_i s₁ hleft
        exact .inr ⟨hpower, n, s₁, rfl, hleft, h⟩
  · rename_i hpower
    exact .inl ⟨Nat.le_of_not_lt hpower, (Option.some.inj h).symm⟩

theorem operators_eq_of_le {left : SymbolId} (h : operators t fuel m left s = some r)
    (hpower : s.current.role.bindingPower ≤ m) : r = (left, s) :=
  ((operators_cases h).resolve_right fun hgo => Nat.not_lt_of_le hpower hgo.1).2

theorem operators_of_lt {left : SymbolId} (h : operators t fuel m left s = some r)
    (hpower : m < s.current.role.bindingPower) :
    ∃ n s₁, fuel = n + 1 ∧
      leftDenotation (expression t n) s.token left (s.advance t) = some s₁ ∧
      operators t n m s.token s₁ = some r :=
  ((operators_cases h).resolve_left fun hstop => Nat.not_lt_of_le hstop.1 hpower).2

/-! ## The invariant -/

/-- From `s₀` the tree has been tied together in `s`, and `z` is the state in which its symbols have
been passed one by one from `z₀`. -/
structure Grown (s₀ z₀ : State) (T : Tree) (s z : State) : Prop where
  same : Same s z
  links : s.Links T
  kept : ∀ id, z₀.Behind id → s.symbol id = s₀.symbol id
  later : ∀ id ∈ T.inorder, ¬z₀.Behind id
  passed : ∀ id ∈ T.inorder, z.Behind id

namespace Grown

variable {s₀ s₁ s₂ z z₀ z₁ z₂ : State} {operand left right : Tree}

theorem leaf (h : Same s z) (hz : Ready t z) (he : z.endSymbol? = none) :
    Grown s z (.leaf z.token) (s.advance t) (z.advance t) := by
  have hsymbol (id : SymbolId) (hid : id < z.symbols.size) : (s.advance t).symbol id = s.symbol id :=
    symbol_advance (h.size ▸ hid)
  refine ⟨h.advance he, ?_, fun id hid => hsymbol id hid.lt, fun id hid hbehind => ?_,
    fun id hid => ?_⟩
  · unfold State.Links
    have hcurrent : s.symbol z.token = z.current := by
      rw [← h.token]
      exact h.current
    rw [hsymbol _ hz.sound.token_lt, hcurrent]
    exact ⟨hz.notUnary, hz.notBinary⟩
  · exact hbehind.ne (List.mem_singleton.1 hid)
  · rw [List.mem_singleton.1 hid]
    exact behind_advance he hz.sound.token_lt

theorem prefixed (h : Same s z) (hz : Ready t z) (he : z.endSymbol? = none)
    (hgrown : Grown ((s.advance t).reserve z.token) ((z.advance t).reserve z.token) operand s₂ z₂)
    (hretains : ((z.advance t).reserve z.token).Retains z₂) :
    Grown s z (.prefixed z.token operand) (s₂.setOperand z.token operand.top) z₂ := by
  have hbehind := behind_advance (t := t) he hz.sound.token_lt
  have hretains₁ := (retains_advance (t := t) he).trans (retains_reserve hbehind)
  have hbehind₁ := (retains_reserve hbehind).behind _ hbehind
  have hbehind₂ := hretains.behind _ hbehind₁
  have hfree := (hretains₁.trans hretains).free _ hz.sound.token_lt hz.free
  have hlt : z.token < s₂.symbols.size := hgrown.same.size ▸ hbehind₂.lt
  have hself : (s₂.setOperand z.token operand.top).symbol z.token =
      { s₂.symbol z.token with first? := some operand.top, kind := .unary } :=
    symbol_modifySymbol_self hlt _
  have hne (id : SymbolId) (hid : id ≠ z.token) :
      (s₂.setOperand z.token operand.top).symbol id = s₂.symbol id :=
    symbol_modifySymbol_of_ne hid
  refine ⟨hgrown.same.modifySymbol hbehind₂ hfree ⟨rfl, rfl, rfl⟩, ⟨by rw [hself], by rw [hself], ?_⟩,
    fun id hid => ?_, fun id hid hbefore => ?_, fun id hid => ?_⟩
  · refine hgrown.links.of_symbol_eq fun id hid => hne id fun heq => ?_
    subst heq
    exact hgrown.later _ hid hbehind₁
  · rw [hne id hid.ne, hgrown.kept id (hretains₁.behind id hid), symbol_reserve_of_ne hid.ne]
    exact symbol_advance (h.size ▸ hid.lt)
  · rcases List.mem_cons.1 hid with rfl | hid
    · exact hbefore.ne rfl
    · exact hgrown.later id hid (hretains₁.behind id hbefore)
  · rcases List.mem_cons.1 hid with rfl | hid
    · exact hbehind₂
    · exact hgrown.passed id hid

theorem binary (hleft : Grown s₀ z₀ left s₁ z₁) (hz : Ready t z₁) (he : z₁.endSymbol? = none)
    (hretains₁ : z₀.Retains z₁) (hright : Grown (s₁.advance t) (z₁.advance t) right s₂ z₂)
    (hretains₂ : (z₁.advance t).Retains z₂) :
    Grown s₀ z₀ (.binary left z₁.token right) (s₂.setOperands z₁.token left.top right.top) z₂ := by
  have hadvance := retains_advance (t := t) he
  have hbehind := behind_advance (t := t) he hz.sound.token_lt
  have hbehind₂ := hretains₂.behind _ hbehind
  have hfree := (hadvance.trans hretains₂).free _ hz.sound.token_lt hz.free
  have hlt : z₁.token < s₂.symbols.size := hright.same.size ▸ hbehind₂.lt
  have hself : (s₂.setOperands z₁.token left.top right.top).symbol z₁.token =
      { s₂.symbol z₁.token with
        first? := some left.top, second? := some right.top, kind := .binary } :=
    symbol_modifySymbol_self hlt _
  have hne (id : SymbolId) (hid : id ≠ z₁.token) :
      (s₂.setOperands z₁.token left.top right.top).symbol id = s₂.symbol id :=
    symbol_modifySymbol_of_ne hid
  -- what stood before the operator is as it was
  have hold (id : SymbolId) (hid : z₁.Behind id) :
      (s₂.setOperands z₁.token left.top right.top).symbol id = s₁.symbol id := by
    rw [hne id hid.ne, hright.kept id (hadvance.behind id hid)]
    exact symbol_advance (hleft.same.size ▸ hid.lt)
  refine ⟨hright.same.modifySymbol hbehind₂ hfree ⟨rfl, rfl, rfl⟩,
    ⟨by rw [hself], by rw [hself], by rw [hself], ?_, ?_⟩,
    fun id hid => ?_, fun id hid hbefore => ?_, fun id hid => ?_⟩
  · exact hleft.links.of_symbol_eq fun id hid => hold id (hleft.passed id hid)
  · refine hright.links.of_symbol_eq fun id hid => hne id fun heq => ?_
    subst heq
    exact hright.later _ hid hbehind
  · rw [hold id (hretains₁.behind id hid), hleft.kept id hid]
  · have hbefore₁ := hretains₁.behind id hbefore
    rcases List.mem_append.1 hid with hid | hid
    · exact hleft.later id hid hbefore
    · rcases List.mem_cons.1 hid with rfl | hid
      · exact hbefore₁.ne rfl
      · exact hright.later id hid (hadvance.behind id hbefore₁)
  · rcases List.mem_append.1 hid with hid | hid
    · exact (hadvance.trans hretains₂).behind id (hleft.passed id hid)
    · rcases List.mem_cons.1 hid with rfl | hid
      · exact hbehind₂
      · exact hright.passed id hid

end Grown

end CStruct.Parse
