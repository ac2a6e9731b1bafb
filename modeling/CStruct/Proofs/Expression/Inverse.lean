import CStruct.Proofs.Parse.Runs

/-!
# Reading expressions undoes writing them in order

A tree is what is read of its symbols, written in order, if it is well formed and what follows binds
no more tightly than the bound and the operators on its right edge. What is read without a report is
such a tree. The main statement, `expression_inorder`, has the two directions.
-/

namespace CStruct.Parse

open SymbolTable State

variable {t : SymbolTable} {fuel m : Nat} {role : SymbolId → Role} {s s' z z₀ : State}
  {r : SymbolId × State}

-- The symbols that have been read in `s` have these roles.
def Agrees (role : SymbolId → Role) (s : State) : Prop :=
  ∀ id < s.symbols.size, (s.symbol id).role = role id

theorem Agrees.of_retains (h : Agrees role z) (hretains : s.Retains z) : Agrees role s :=
  fun id hid => (hretains.role id hid).symm.trans
    (h id (Nat.lt_of_lt_of_le hid hretains.symbols_le))

theorem Agrees.current (h : Agrees role s) (hs : Ready t s) : s.current.role = role s.token :=
  h s.token hs.sound.token_lt

namespace State

/-- A symbol that can do something at the start of an expression is not the end. -/
theorem Ready.not_end_of_nud (h : Ready t s) (hend : (t.prototype endId).role.nud = none)
    {nud : NullDenotation} (hnud : s.current.role.nud = some nud) : s.endSymbol? = none := by
  by_contra he
  rw [h.ended he, hend] at hnud
  cases hnud

theorem Ready.not_end_of_power (ht : t.Stops) (h : Ready t s)
    (hpower : m < s.current.role.bindingPower) : s.endSymbol? = none := by
  by_contra he
  rw [(h.sound.current he).power ht] at hpower
  exact Nat.not_lt_zero m hpower

/-- Once passed, the token has the role that it had. -/
theorem Same.role_advance (h : Same s z) (hz : Ready t z) :
    ((s.advance t).symbol z.token).role = z.current.role := by
  rw [symbol_advance (h.size ▸ hz.sound.token_lt), h.role]
  rfl

theorem pass_of_itself (hnud : s.current.role.nud = some .itself) :
    s.isPrefixed true = false ∧ s.pass t true = s.advance t := by
  have hprefixed : s.isPrefixed true = false := by
    rw [isPrefixed, hnud]
    rfl
  refine ⟨hprefixed, ?_⟩
  rw [State.pass, hprefixed]
  rfl

theorem pass_of_prefixed (hnud : s.current.role.nud = some .prefixed) :
    s.isPrefixed true = true ∧ s.pass t true = (s.advance t).reserve s.token := by
  have hprefixed : s.isPrefixed true = true := by
    rw [isPrefixed, hnud]
    rfl
  refine ⟨hprefixed, ?_⟩
  rw [State.pass, hprefixed]
  rfl

end State

/-! ## From the tree to the expression -/

/-- Wherever the symbols of `T` come next and may be grouped as `T` says, reading an expression gets
to where `T` has been tied together and what follows it is looked at. -/
def Gathers (t : SymbolTable) (role : SymbolId → Role) (T : Tree) : Prop :=
  ∀ {m fuel : Nat} {s z₀ z : State} {operand : Bool} {r : SymbolId × State},
    Ready t z₀ → Same s z₀ → Ahead t true z₀ T.inorder operand z → Agrees role z →
      T.WellFormed role m → T.Leaves role z.current.role.bindingPower →
        expression t fuel m s = some r →
          operand = false ∧
            ∃ fuel' s', Grown s z₀ T s' z ∧ operators t fuel' m T.top s' = some r

namespace Gathers

variable {T operand left right : Tree} {id : SymbolId} {after : Bool}

/-- When what follows binds no more tightly than the bound, the whole of the tree is read. -/
theorem read (h : Gathers t role T) (hz₀ : Ready t z₀) (hsame : Same s z₀)
    (hahead : Ahead t true z₀ T.inorder after z) (hrole : Agrees role z)
    (hT : T.WellFormed role m) (hleaves : T.Leaves role z.current.role.bindingPower)
    (hpower : z.current.role.bindingPower ≤ m) (hread : expression t fuel m s = some r) :
    after = false ∧ ∃ s', r = (T.top, s') ∧ Grown s z₀ T s' z := by
  obtain ⟨hafter, fuel', s', hgrown, hstop⟩ := h hz₀ hsame hahead hrole hT hleaves hread
  rw [← hgrown.same.current] at hpower
  exact ⟨hafter, s', operators_eq_of_le hstop hpower, hgrown⟩

theorem leaf (hend : (t.prototype endId).role.nud = none) (ht : t.Stops) :
    Gathers t role (.leaf id) := by
  intro m fuel s z₀ z after r hz₀ hsame hahead hrole hT _ h
  obtain ⟨rfl, hnil⟩ := hahead.cons_inv
  have hnud : z₀.current.role.nud = some .itself := by
    rw [(hrole.of_retains (hahead.ready ht hz₀).2).current hz₀]
    exact hT
  have he := hz₀.not_end_of_nud hend hnud
  rw [(pass_of_itself (t := t) hnud).1, (pass_of_itself (t := t) hnud).2] at hnil
  obtain ⟨rfl, rfl⟩ := hnil.nil_inv
  obtain ⟨n, s₁, -, hnull, hoperators⟩ := expression_cases h
  rw [hsame.token] at hnull hoperators
  obtain rfl := nullDenotation_of_itself hnull ((congrArg _ (hsame.role_advance hz₀)).trans hnud)
  exact ⟨rfl, n, _, .leaf hsame hz₀ he, hoperators⟩

theorem prefixed (hend : (t.prototype endId).role.nud = none) (ht : t.Stops)
    (hoperand : Gathers t role operand) : Gathers t role (.prefixed id operand) := by
  intro m fuel s z₀ z after r hz₀ hsame hahead hrole hT hleaves h
  obtain ⟨rfl, hrest⟩ := hahead.cons_inv
  have hnud : z₀.current.role.nud = some .prefixed := by
    rw [(hrole.of_retains (hahead.ready ht hz₀).2).current hz₀]
    exact hT.1
  have he := hz₀.not_end_of_nud hend hnud
  have hz₁ := (hz₀.pass ht true).1
  rw [(pass_of_prefixed (t := t) hnud).1, (pass_of_prefixed (t := t) hnud).2] at hrest
  rw [(pass_of_prefixed (t := t) hnud).2] at hz₁
  obtain ⟨n, s₁, -, hnull, hoperators⟩ := expression_cases h
  rw [hsame.token] at hnull hoperators
  obtain ⟨top, s₂, hread, rfl⟩ :=
    nullDenotation_of_prefixed hnull ((congrArg _ (hsame.role_advance hz₀)).trans hnud)
  have hsame₁ := (hsame.advance (t := t) he).reserve (behind_advance he hz₀.sound.token_lt)
  obtain ⟨hafter, s₃, heq, hgrown⟩ := hoperand.read hz₁ hsame₁ hrest hrole hT.2
    (fun q hq => hleaves q (List.mem_cons_of_mem _ hq)) (hleaves _ List.mem_cons_self) hread
  cases heq
  exact ⟨hafter, n, _, .prefixed hsame hz₀ he hgrown (hrest.ready ht hz₁).2, hoperators⟩

theorem binary (ht : t.Stops) (hleft : Gathers t role left) (hright : Gathers t role right) :
    Gathers t role (.binary left id right) := by
  intro m fuel s z₀ z after r hz₀ hsame hahead hrole hT hleaves h
  obtain ⟨hled, hpower, hL, hLleaves, hR⟩ := hT
  obtain ⟨after₁, z₁, hahead₁, hahead₂⟩ := hahead.split
  obtain ⟨rfl, hrest⟩ := hahead₂.cons_inv
  obtain ⟨hz₁, hretains₁⟩ := hahead₁.ready ht hz₀
  have hretains₂ := (hrest.ready ht (hz₁.pass ht _).1).2
  have hrole₁ := hrole.of_retains ((hz₁.pass ht _).2.trans hretains₂)
  have hcurrent := hrole₁.current hz₁
  have hnext : z.current.role.bindingPower ≤ (role z₁.token).rightPower :=
    hleaves _ List.mem_cons_self
  rw [← hcurrent] at hled hpower hLleaves hR hnext
  have he := hz₁.not_end_of_power ht hpower
  -- the left operand comes first, and it leaves the operator alone
  obtain ⟨rfl, n₁, s₁, hgrown₁, hoperators₁⟩ := hleft hz₀ hsame hahead₁ hrole₁ hL hLleaves h
  rw [← hgrown₁.same.current] at hpower
  -- then the operator takes it, as it binds more tightly than the bound
  obtain ⟨n, s₂, rfl, hdenotation, hoperators⟩ := operators_of_lt hoperators₁ hpower
  rw [hgrown₁.same.token] at hdenotation hoperators
  have hpassed := hgrown₁.same.role_advance (t := t) hz₁
  obtain ⟨top, s₃, hread, rfl⟩ := leftDenotation_of_led hdenotation (by rw [hpassed]; exact hled)
  rw [hpassed] at hread
  obtain ⟨hafter, s₄, heq, hgrown₂⟩ := hright.read (hz₁.advance he) (hgrown₁.same.advance he)
    hrest hrole hR (fun q hq => hleaves q (List.mem_cons_of_mem _ hq)) hnext hread
  cases heq
  exact ⟨hafter, n, _, hgrown₁.binary hz₁ he hretains₁ hgrown₂ hretains₂, hoperators⟩

end Gathers

/-- The symbols of any tree are gathered. -/
theorem gathers (ht : t.Stops) (hend : (t.prototype endId).role.nud = none) (T : Tree) :
    Gathers t role T := by
  induction T with
  | leaf id => exact Gathers.leaf hend ht
  | prefixed id operand ih => exact Gathers.prefixed hend ht ih
  | binary left id right ihl ihr => exact Gathers.binary ht ihl ihr

/-! ## From the expression to the tree -/

/-- What has been read is a well formed tree, and what follows it can go on with it. -/
structure Forms (t : SymbolTable) (m : Nat) (s₀ z₀ : State) (T : Tree) (s z : State) : Prop where
  ahead : Ahead t true z₀ T.inorder false z
  grown : Grown s₀ z₀ T s z
  wellFormed : ∀ role, Agrees role z → T.WellFormed role m
  leaves : ∀ role, Agrees role z → T.Leaves role z.current.role.bindingPower

namespace Forms

variable {s₀ s₁ s₂ z₁ z₂ : State} {o L R : Tree} {m' : Nat}

theorem leaf (hsame : Same s z) (hz : Ready t z) (he : z.endSymbol? = none)
    (hnud : z.current.role.nud = some .itself) :
    Forms t m s z (.leaf z.token) (s.advance t) (z.advance t) where
  ahead := by
    have hnil : Ahead t false (z.advance t) [] false (z.advance t) := .nil
    obtain ⟨hprefixed, hpass⟩ := pass_of_itself (t := t) hnud
    rw [← hpass] at hnil ⊢
    exact .cons (by rw [hprefixed]; exact hnil)
  grown := .leaf hsame hz he
  wellFormed := fun role hrole => by
    show (role z.token).nud = some .itself
    rw [← (hrole.of_retains (retains_advance he)).current hz]
    exact hnud
  leaves := fun _ _ _ hq => by cases hq

theorem prefixed (hsame : Same s z) (hz : Ready t z) (he : z.endSymbol? = none)
    (hnud : z.current.role.nud = some .prefixed)
    (h : Forms t prefixPower ((s.advance t).reserve z.token) ((z.advance t).reserve z.token) o s₂ z₂)
    (hretains : ((z.advance t).reserve z.token).Retains z₂)
    (hpower : z₂.current.role.bindingPower ≤ prefixPower) :
    Forms t m s z (.prefixed z.token o) (s₂.setOperand z.token o.top) z₂ where
  ahead := by
    have hahead := h.ahead
    obtain ⟨hprefixed, hpass⟩ := pass_of_prefixed (t := t) hnud
    rw [← hpass] at hahead
    exact .cons (by rw [hprefixed]; exact hahead)
  grown := .prefixed hsame hz he h.grown hretains
  wellFormed := fun role hrole => by
    have hbehind := behind_advance (t := t) he hz.sound.token_lt
    have hall := ((retains_advance (t := t) he).trans (retains_reserve hbehind)).trans hretains
    refine ⟨?_, h.wellFormed role hrole⟩
    rw [← (hrole.of_retains hall).current hz]
    exact hnud
  leaves := fun role hrole q hq => by
    rcases List.mem_cons.1 hq with rfl | hq
    · exact hpower
    · exact h.leaves role hrole q hq

theorem binary (hleft : Forms t m s₀ z₀ L s₁ z₁) (hz : Ready t z₁) (he : z₁.endSymbol? = none)
    (hretains₁ : z₀.Retains z₁) (hled : z₁.current.role.led.isSome)
    (hpower : m < z₁.current.role.bindingPower)
    (hright : Forms t z₁.current.role.rightPower (s₁.advance t) (z₁.advance t) R s₂ z₂)
    (hretains₂ : (z₁.advance t).Retains z₂)
    (hnext : z₂.current.role.bindingPower ≤ z₁.current.role.rightPower) :
    Forms t m s₀ z₀ (.binary L z₁.token R) (s₂.setOperands z₁.token L.top R.top) z₂ where
  ahead := hleft.ahead.append (.cons hright.ahead)
  grown := hleft.grown.binary hz he hretains₁ hright.grown hretains₂
  wellFormed := fun role hrole => by
    have hrole₁ := hrole.of_retains ((retains_advance he).trans hretains₂)
    unfold Tree.WellFormed
    rw [← hrole₁.current hz]
    exact ⟨hled, hpower, hleft.wellFormed role hrole₁, hleft.leaves role hrole₁,
      hright.wellFormed role hrole⟩
  leaves := fun role hrole q hq => by
    have hrole₁ := hrole.of_retains ((retains_advance he).trans hretains₂)
    rcases List.mem_cons.1 hq with rfl | hq
    · rw [← hrole₁.current hz]
      exact hnext
    · exact hright.leaves role hrole q hq

end Forms

-- Nothing is reported between the two states.
def Quiet (s s' : State) : Prop := s'.diagnostics.toList.length ≤ s.diagnostics.toList.length

theorem State.Grows.quiet_left {s s₁ s' : State} (h : s.Grows s₁) (hquiet : Quiet s s') :
    Quiet s₁ s' :=
  Nat.le_trans hquiet h.length_le

theorem State.Grows.quiet_right {s s₁ s' : State} (h : s₁.Grows s') (hquiet : Quiet s s') :
    Quiet s s₁ :=
  Nat.le_trans h.length_le hquiet

theorem not_quiet_report {s s' : State} {id : SymbolId} {problem : Problem}
    (h : (s.report id problem).Grows s') : ¬Quiet s s' := by
  intro hquiet
  have hle := h.length_le
  rw [toList_report, List.length_append, List.length_singleton] at hle
  unfold Quiet at hquiet
  omega

/-- With this fuel, what is read without a report is a tree. -/
def ReadsTrees (t : SymbolTable) (fuel : Nat) : Prop :=
  ∀ m s z₀ top s', Ready t z₀ → Same s z₀ → expression t fuel m s = some (top, s') →
    Quiet s s' →
      ∃ T z, top = T.top ∧ Forms t m s z₀ T s' z ∧ z.current.role.bindingPower ≤ m

/-- With this fuel, going on with a tree makes a larger one. -/
def ExtendsTrees (t : SymbolTable) (fuel : Nat) : Prop :=
  ∀ m s₀ z₀ L s z top s', Ready t z₀ → Forms t m s₀ z₀ L s z →
    operators t fuel m L.top s = some (top, s') → Quiet s s' →
      ∃ T z', top = T.top ∧ Forms t m s₀ z₀ T s' z' ∧ z'.current.role.bindingPower ≤ m

theorem readsTrees_of_lt (ht : t.Stops) (hend : (t.prototype endId).role.nud = none)
    (ih : ∀ n < fuel, ReadsTrees t n ∧ ExtendsTrees t n) : ReadsTrees t fuel := by
  intro m s z₀ top s' hz₀ hsame h hquiet
  obtain ⟨n, s₁, rfl, hnull, hoperators⟩ := expression_cases h
  obtain ⟨hreads, hextends⟩ := ih n (Nat.lt_succ_self n)
  have hgrows := (grows_expression_operators t n).2 _ _ _ _ _ hoperators
  have hquiet₁ := (grows_advance t s).quiet_left hquiet
  have hquiet₂ := hgrows.quiet_right hquiet₁
  rw [hsame.token] at hnull hoperators
  have hpassed := hsame.role_advance (t := t) hz₀
  rcases nullDenotation_cases hnull with ⟨hnud, rfl⟩ | ⟨hnud, top', s₂, hread, rfl⟩ | ⟨-, rfl⟩
  · rw [hpassed] at hnud
    have he := hz₀.not_end_of_nud hend hnud
    exact hextends _ _ _ _ _ _ _ _ hz₀ (.leaf hsame hz₀ he hnud) hoperators hquiet₁
  · rw [hpassed] at hnud
    have he := hz₀.not_end_of_nud hend hnud
    have hbehind := behind_advance (t := t) he hz₀.sound.token_lt
    have hz₁ := (hz₀.advance he).reserve hbehind
      (hz₀.sound.advance.plain _ (hz₀.sound.plain_token he))
    -- what is read as the operand is read quietly too
    have hquiet₃ : Quiet ((s.advance t).reserve z₀.token) s₂ :=
      (grows_reserve _ _).quiet_left hquiet₂
    obtain ⟨o, z₂, rfl, hoperand, hnext⟩ := hreads _ _ _ _ _ hz₁
      ((hsame.advance he).reserve hbehind) hread hquiet₃
    exact hextends _ _ _ _ _ _ _ _ hz₀
      (.prefixed hsame hz₀ he hnud hoperand (hoperand.ahead.ready ht hz₁).2 hnext) hoperators
      (((grows_reserve _ _).trans ((grows_expression hread).trans (.of_eq rfl))).quiet_left
        hquiet₁)
  · exact absurd hquiet₁ (not_quiet_report hgrows)

theorem extendsTrees_of_lt (ht : t.Stops)
    (ih : ∀ n < fuel, ReadsTrees t n ∧ ExtendsTrees t n) : ExtendsTrees t fuel := by
  intro m s₀ z₀ L s z top s' hz₀ hforms h hquiet
  obtain ⟨hz, hretains⟩ := hforms.ahead.ready ht hz₀
  rcases operators_cases h with ⟨hpower, heq⟩ | ⟨hpower, n, s₁, rfl, hleft, hoperators⟩
  · cases heq
    rw [hforms.grown.same.current] at hpower
    exact ⟨L, z, rfl, hforms, hpower⟩
  · obtain ⟨hreads, hextends⟩ := ih n (Nat.lt_succ_self n)
    have hgrows := (grows_expression_operators t n).2 _ _ _ _ _ hoperators
    have hquiet₁ := (grows_advance t s).quiet_left hquiet
    have hquiet₂ := hgrows.quiet_right hquiet₁
    rw [hforms.grown.same.current] at hpower
    have he := hz.not_end_of_power ht hpower
    rw [hforms.grown.same.token] at hleft hoperators
    have hpassed := hforms.grown.same.role_advance (t := t) hz
    rcases leftDenotation_cases hleft with ⟨hled, top', s₂, hread, rfl⟩ | ⟨-, rfl⟩
    · rw [hpassed] at hled hread
      obtain ⟨R, z₂, rfl, hright, hnext⟩ := hreads _ _ _ _ _ (hz.advance he)
        (hforms.grown.same.advance he) hread hquiet₂
      exact hextends _ _ _ _ _ _ _ _ hz₀
        (hforms.binary hz he hretains hled hpower hright
          (hright.ahead.ready ht (hz.advance he)).2 hnext) hoperators
        (((grows_expression hread).trans (.of_eq rfl)).quiet_left hquiet₁)
    · exact absurd hquiet₁ (not_quiet_report hgrows)

theorem readsTrees_extendsTrees (ht : t.Stops) (hend : (t.prototype endId).role.nud = none)
    (fuel : Nat) : ReadsTrees t fuel ∧ ExtendsTrees t fuel := by
  induction fuel using Nat.strongRecOn with
  | ind fuel ih => exact ⟨readsTrees_of_lt ht hend ih, extendsTrees_of_lt ht ih⟩

/-! ## The states in which expressions are read -/

/-- A state that reading expressions, passing symbols and reporting problems leads to from the start
of some lexemes. -/
def Reached (t : SymbolTable) (s : State) : Prop :=
  ∃ lexemes endPosition, ExpressionRun t ((State.ofLexemes lexemes endPosition).advance t) s

namespace Reached

theorem start (lexemes : List Lexeme) (endPosition : Position) :
    Reached t ((State.ofLexemes lexemes endPosition).advance t) :=
  ⟨lexemes, endPosition, .refl⟩

theorem poised (h : Reached t s) : s.Poised t := by
  obtain ⟨lexemes, endPosition, hrun⟩ := h
  exact ((poised_ofLexemes t lexemes endPosition).run hrun.run).poised

/-- Where an expression ends, the next one can start. -/
theorem expression (ht : t.Stops) (h : Reached t s) {top : SymbolId}
    (hexpression : expression t fuel m s = some (top, s')) : Reached t s' := by
  have hs := h.poised
  obtain ⟨lexemes, endPosition, hrun⟩ := h
  exact ⟨lexemes, endPosition, hrun.trans (steps_expression ht hs hexpression)⟩

theorem ready_start (t : SymbolTable) (lexemes : List Lexeme) (endPosition : Position) :
    Ready t ((State.ofLexemes lexemes endPosition).advance t) := by
  apply ready_advance rfl (sound_ofLexemes t lexemes endPosition)
  intro name id hname
  have hnone : (State.ofLexemes lexemes endPosition).local? name = none := rfl
  rw [hnone] at hname
  cases hname

theorem ready_step (hs : s.Poised t) (h : Ready t s) (hstep : ExpressionStep t s s') :
    Ready t s' := by
  have hbehind {id : SymbolId} (hid : s.Passed id) : s.Behind id ∧ s.Plain id :=
    ⟨⟨Nat.lt_trans hid.lt hs.sound.token_lt, Nat.ne_of_lt hid.lt⟩, hs.sound.plain_of_lt hid.lt⟩
  cases hstep with
  | advance =>
    cases he : s.endSymbol? with
    | none => exact h.advance he
    | some e =>
      obtain ⟨cs, heq⟩ := advance_of_some (t := t) h.sound he
      rw [heq]
      exact ⟨⟨h.sound.token_lt, h.sound.atEnd⟩, h.ended, h.named, h.free, h.notUnary, h.notBinary⟩
  | report id problem =>
    exact ⟨⟨h.sound.token_lt, h.sound.atEnd⟩, h.ended, h.named, h.free, h.notUnary, h.notBinary⟩
  | reserve hid => exact h.reserve (hbehind hid).1 (hbehind hid).2
  | operand o hid => exact h.modifySymbol (hbehind hid).1 (hbehind hid).2 _
  | operands l r hid => exact h.modifySymbol (hbehind hid).1 (hbehind hid).2 _

theorem ready (h : Reached t s) : Ready t s := by
  obtain ⟨lexemes, endPosition, hrun⟩ := h
  induction hrun with
  | refl => exact ready_start t lexemes endPosition
  | tail hrun hstep ih =>
    have hs := (poised_ofLexemes t lexemes endPosition).run (ExpressionRun.run hrun)
    exact ready_step hs.poised ih hstep

end Reached

/-! ## Both directions -/

/-- The role of each symbol that has been read. -/
def State.roleOf (s : State) (id : SymbolId) : Role := (s.symbol id).role

theorem Tree.inorder_ne_nil (T : Tree) : T.inorder ≠ [] := by
  cases T <;> simp [Tree.inorder]

/-- In a table that is built up from operators, and in which nothing is read beyond the end:

- if the symbols of a well formed tree come next, and what follows leaves them to it, then they are
  read as that tree, and no error is reported unless what follows is an unknown operator;
- if an expression is read and nothing is reported, then it is a well formed tree, and the only one,
  whose symbols came next. -/
theorem expression_inorder (hbuilt : t.Built) (ht : t.Stops) (hs : Reached t s) (m : Nat) :
    (∀ T operand z, Ahead t true s T.inorder operand z → T.WellFormed z.roleOf m →
      T.Leaves z.roleOf z.current.role.bindingPower → z.current.role.bindingPower ≤ m →
      ∃ s', expression t s.fuel m s = some (T.top, s') ∧ s'.Links T ∧ Same s' z ∧
        s'.errors = s.errors ++ unknownOperator t z.current) ∧
    (∀ top s', expression t s.fuel m s = some (top, s') → s'.diagnostics = s.diagnostics →
      ∃ T z, T.top = top ∧ s'.Links T ∧ (∀ T' : Tree, T'.top = top → s'.Links T' → T' = T) ∧
        Ahead t true s T.inorder false z ∧ Same s' z ∧ T.WellFormed z.roleOf m ∧
        T.Leaves z.roleOf z.current.role.bindingPower ∧ z.current.role.bindingPower ≤ m) := by
  have hready := hs.ready
  -- the end is no operand, so an expression stops in front of it
  have hend : (t.prototype endId).role.nud = none := by
    cases hnud : (t.prototype endId).role.nud with
    | none => rfl
    | some nud =>
      cases nud with
      | itself => exact absurd hnud hbuilt.nud_end
      | prefixed => exact absurd hnud ht.nud
  constructor
  · intro T operand z hahead hT hleaves hpower
    -- something is read, and it can only be the tree
    obtain ⟨top, s₁, hread, -⟩ := expression_isSome ht m hready.sound
    obtain ⟨-, s', heq, hgrown⟩ := Gathers.read (gathers ht hend T) hready (.refl s) hahead
      (fun _ _ => rfl) hT hleaves hpower hread
    refine ⟨s', hread.trans (congrArg some heq), hgrown.links, hgrown.same, ?_⟩
    rw [errors, hgrown.same.diagnostics]
    exact hahead.errors ht hready T.inorder_ne_nil hT.role_ne
  · intro top s' hread hquiet
    obtain ⟨T, z, rfl, hforms, hpower⟩ := (readsTrees_extendsTrees ht hend s.fuel).1 m s s top s'
      hready (.refl s) hread (by rw [Quiet, hquiet])
    exact ⟨T, z, rfl, hforms.grown.links,
      fun T' htop hlinks => hforms.grown.links.unique hlinks htop, hforms.ahead,
      hforms.grown.same, hforms.wellFormed _ fun _ _ => rfl, hforms.leaves _ fun _ _ => rfl, hpower⟩

/-- Sums, powers and signs. -/
def arithmetic : SymbolTable := ((basic.leftAssoc "+" 10).rightAssoc "^" 20).prefixed "-"

theorem stops_arithmetic : arithmetic.Stops := ⟨by decide, by decide⟩

theorem built_arithmetic : arithmetic.Built := .prefixed _ (.rightAssoc _ _ (.leftAssoc _ _ .basic))

/-- The text `1 + -2 ^ 3`, of which nothing has been read. -/
def sum : State :=
  (State.ofLexemes [⟨.number, "1", {}⟩, ⟨.operator, "+", {}⟩, ⟨.operator, "-", {}⟩,
    ⟨.number, "2", {}⟩, ⟨.operator, "^", {}⟩, ⟨.number, "3", {}⟩] {}).advance arithmetic

/-- The sign belongs to the base of the power, and the power to the sum. -/
def sumTree : Tree := .binary (.leaf 0) 1 (.binary (.prefixed 2 (.leaf 3)) 4 (.leaf 5))

theorem Ahead.of_token {operand operand' : Bool} {id : SymbolId} {ids : List SymbolId}
    (htoken : s.token = id)
    (h : Ahead t (!operand || s.isPrefixed operand) (s.pass t operand) ids operand' z) :
    Ahead t operand s (id :: ids) operand' z :=
  htoken ▸ .cons h

theorem expression_inorder_sum :
    (∃ s', expression arithmetic sum.fuel 0 sum = some (sumTree.top, s') ∧ s'.Links sumTree) ∧
      ∃ top s', expression arithmetic sum.fuel 0 sum = some (top, s') ∧
        s'.diagnostics = sum.diagnostics ∧ ∃ T : Tree, T.top = top ∧ s'.Links T := by
  have hboth := expression_inorder built_arithmetic stops_arithmetic (s := sum) (.start _ _) 0
  have hahead : ∃ operand z, Ahead arithmetic true sum sumTree.inorder operand z ∧
      sumTree.WellFormed z.roleOf 0 ∧ sumTree.Leaves z.roleOf z.current.role.bindingPower ∧
      z.current.role.bindingPower ≤ 0 := by
    refine ⟨_, _, .of_token ?_ (.of_token ?_ (.of_token ?_ (.of_token ?_ (.of_token ?_
      (.of_token ?_ .nil))))), ?_⟩
    all_goals decide +kernel
  obtain ⟨operand, z, hahead, hT, hleaves, hpower⟩ := hahead
  obtain ⟨s', hread, hlinks, -⟩ := hboth.1 sumTree operand z hahead hT hleaves hpower
  have hquiet : s'.diagnostics = sum.diagnostics := by
    have hsome : (expression arithmetic sum.fuel 0 sum).map (·.2.diagnostics) =
        some sum.diagnostics := by decide +kernel
    rw [hread] at hsome
    exact Option.some.inj hsome
  obtain ⟨T, -, htop, hT, -⟩ := hboth.2 _ s' hread hquiet
  exact ⟨⟨s', hread, hlinks⟩, _, s', hread, hquiet, T, htop, hT⟩

/-- The text `1 ?`, of which nothing has been read, and whose operator is in no table. -/
def strayOperator : State :=
  (State.ofLexemes [⟨.number, "1", {}⟩, ⟨.operator, "?", {}⟩] {}).advance arithmetic

/-- Reading a tree is not silent in general: the operator behind it may be unknown. -/
theorem not_silent_expression :
    ¬∀ (t : SymbolTable) (s : State) (m : Nat) (T : Tree) (operand : Bool) (z : State),
      t.Built → t.Stops → Reached t s → Ahead t true s T.inorder operand z →
        T.WellFormed z.roleOf m → T.Leaves z.roleOf z.current.role.bindingPower →
          z.current.role.bindingPower ≤ m →
            ∃ s', expression t s.fuel m s = some (T.top, s') ∧ s'.errors = s.errors := by
  intro hsilent
  have hahead : ∃ operand z, Ahead arithmetic true strayOperator (Tree.leaf 0).inorder operand z ∧
      (Tree.leaf 0).WellFormed z.roleOf 0 ∧
      (Tree.leaf 0).Leaves z.roleOf z.current.role.bindingPower ∧
      z.current.role.bindingPower ≤ 0 := by
    refine ⟨_, _, .of_token ?_ .nil, ?_⟩
    all_goals decide +kernel
  obtain ⟨operand, z, hahead, hT, hleaves, hpower⟩ := hahead
  obtain ⟨s', hread, herrors⟩ := hsilent arithmetic strayOperator 0 (.leaf 0) operand z
    built_arithmetic stops_arithmetic (.start _ _) hahead hT hleaves hpower
  have hreported : (expression arithmetic strayOperator.fuel 0 strayOperator).map (·.2.errors) ≠
      some strayOperator.errors := by decide +kernel
  exact hreported (by rw [hread, Option.map_some, herrors])

end CStruct.Parse
