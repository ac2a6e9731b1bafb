import CStruct.Proofs.Expression.Inverse
import CStruct.Proofs.Expression.Linked

/-!
# Symbols stand in order under their operators

Whatever is read, and with whatever table in which the end of the input stops every expression, the
operators and their operands form a forest whose symbols stand in order. The main statement is
`operands_inorder`.
-/

namespace CStruct.Parse

open SymbolTable State Relation

variable {t : SymbolTable} {s s' s₀ : State} {left : SymbolId} {fuel n : Nat}

/-! ## Expressions -/

/-- Expressions that are read with this much fuel are tied together in order. -/
def TiesExpressions (t : SymbolTable) (fuel : Nat) : Prop :=
  ∀ m s top s', s.Poised t → s.Linked → IsRoot s.symbol s.token →
    expression t fuel m s = some (top, s') → Tied s s' top

theorem tied_nud (ht : t.Stops) (hs : s.Poised t) (h : s.Linked)
    (hroot : IsRoot s.symbol s.token) (hread : TiesExpressions t n)
    (hnull : nullDenotation (expression t n) s.token (s.advance t) = some s') :
    Tied s s' s.token := by
  have hleaf := (Reaches.start h).leaf hs hroot
  rcases nullDenotation_cases hnull with ⟨-, rfl⟩ | ⟨hnud, operand, s₂, hoperand, rfl⟩ | ⟨-, rfl⟩
  · exact hleaf
  · -- the end is no prefix operator, so the operand starts with a token that is new
    have he : s.endSymbol? = none := by
      by_contra he
      rw [symbol_advance hs.sound.token_lt] at hnud
      exact (hs.sound.current he).nud ht hnud
    have hpassed := hs.passed (t := t) he
    have hs₁ := (hs.advance.poised.reserve hpassed.lt).poised
    have hunties := unties_reserve (s.advance t) s.token
    have hreach : Reaches s ((s.advance t).reserve s.token) :=
      hleaf.toReaches.of_unties hunties fun i hi => symbol_reserve_of_ne (Nat.ne_of_lt hi)
    have hfresh : IsRoot ((s.advance t).reserve s.token).symbol
        ((s.advance t).reserve s.token).token := by
      rw [token_reserve]
      exact hunties.ties.isRoot_iff.2 (h.root_advance hs.sound he)
    have hlt : s.token < ((s.advance t).reserve s.token).token := by
      rw [token_reserve]
      exact hpassed.lt
    have htied := hread _ _ _ _ hs₁ hreach.linked hfresh hoperand
    have hs₂ := (hs₁.run (steps_expression ht hs₁ hoperand).run).leads.sound
    have hjoining : Joining s ((s.advance t).reserve s.token) s₂ none s.token operand :=
      ⟨hreach, hfresh, Nat.le_refl _, hlt, hunties.ties.isRoot_iff.2 hleaf.root, nofun, htied⟩
    apply hjoining.tied_operator
    rw [symbol_modifySymbol_self (Nat.lt_trans hjoining.lt_token hs₂.token_lt)]
    have hsecond : (s₂.symbol s.token).second? = none := by
      rw [htied.kept s.token hlt, hunties.ties.second?, (ties_advance t s).1.second?]
      exact h.alone_token.second?
    exact ⟨⟨rfl, hsecond⟩, rfl, hsecond⟩
  · exact hleaf.report _ _

theorem tied_led (ht : t.Stops) (hs : s.Poised t) (h : Tied s₀ s left)
    (he : s.endSymbol? = none) (hread : TiesExpressions t n)
    (hleft : leftDenotation (expression t n) s.token left (s.advance t) = some s') :
    Tied s₀ s' s.token := by
  have hleaf := h.toReaches.leaf hs (h.linked.fresh he)
  have hties := (ties_advance t s).1
  rcases leftDenotation_cases hleft with ⟨-, right, s₂, hright, rfl⟩ | ⟨-, rfl⟩
  · have hs₁ := hs.advance.poised
    have hfresh := h.linked.root_advance (t := t) hs.sound he
    have hpassed := (hs.passed (t := t) he).lt
    have htied := hread _ _ _ _ hs₁ hleaf.linked hfresh hright
    have hs₂ := (hs₁.run (steps_expression ht hs₁ hright).run).leads.sound
    have hisLeft : ∀ l ∈ some left, IsLeft s₀ (s.advance t) s.token l := by
      intro l hl
      cases Option.some.inj hl
      exact ⟨hties.isRoot_iff.2 h.root, h.ge, fun x hx => h.lt_of_inTree he (hties.inTree_iff.1 hx)⟩
    have hjoining : Joining s₀ (s.advance t) s₂ (some left) s.token right :=
      ⟨hleaf.toReaches, hfresh, hleaf.ge, hpassed, hleaf.root, hisLeft, htied⟩
    apply hjoining.tied_operator
    rw [symbol_modifySymbol_self (Nat.lt_trans hjoining.lt_token hs₂.token_lt)]
    exact ⟨⟨rfl, rfl⟩, rfl, rfl⟩
  · exact hleaf.report _ _

theorem tied_expression_operators (ht : t.Stops) (fuel : Nat) :
    TiesExpressions t fuel ∧
    ∀ m left s₀ s top s', s.Poised t → Tied s₀ s left →
      operators t fuel m left s = some (top, s') → Tied s₀ s' top := by
  induction fuel using Nat.strongRecOn with
  | ind fuel ih =>
    refine ⟨fun m s top s' hs h hroot hexpression => ?_, fun m left s₀ s top s' hs h hoperators => ?_⟩
    · obtain ⟨n, s₁, rfl, hnull, hoperators⟩ := expression_cases hexpression
      obtain ⟨ihexpression, ihoperators⟩ := ih n (Nat.lt_succ_self n)
      have hrun := steps_nullDenotation ht hs (fun _ _ _ _ hs => steps_expression ht hs) hnull
      exact ihoperators _ _ _ _ _ _ (hs.run hrun.run).poised
        (tied_nud ht hs h hroot ihexpression hnull) hoperators
    · rcases operators_cases hoperators with ⟨-, heq⟩ | ⟨hpower, n, s₁, rfl, hleft, hrest⟩
      · cases heq
        exact h
      · obtain ⟨ihexpression, ihoperators⟩ := ih n (Nat.lt_succ_self n)
        -- the end binds nothing, so an operator is not the end
        have he : s.endSymbol? = none := by
          by_contra he
          rw [(hs.sound.current he).power ht] at hpower
          exact Nat.not_lt_zero m hpower
        have hrun := steps_leftDenotation hs (fun _ _ _ _ hs => steps_expression ht hs) he hleft
        exact ihoperators _ _ _ _ _ _ (hs.run hrun.run).poised
          (tied_led ht hs h he ihexpression hleft) hrest

/-- At the end, the end alone is read, and nothing is made of it. -/
theorem unties_expression_of_end (ht : t.Stops) (hs : s.Poised t) {e : SymbolId}
    (he : s.endSymbol? = some e) {m : Nat} {top : SymbolId}
    (h : expression t fuel m s = some (top, s')) : s.Unties s' := by
  have hend := hs.sound.current (by rw [he]; nofun)
  obtain ⟨n, s₁, rfl, hnull, hoperators⟩ := expression_cases h
  obtain ⟨cs, hadvance⟩ := advance_of_some (t := t) hs.sound he
  have hunties : s.Unties s₁ ∧ s₁.symbols = s.symbols := by
    rcases nullDenotation_cases hnull with ⟨-, rfl⟩ | ⟨hnud, -⟩ | ⟨-, rfl⟩
    · rw [hadvance]
      exact ⟨unties_of_symbols rfl rfl rfl, rfl⟩
    · rw [hadvance] at hnud
      exact absurd hnud (hend.nud ht)
    · rw [hadvance]
      exact ⟨unties_of_symbols rfl rfl rfl, rfl⟩
  have hpower : s₁.current.role.bindingPower ≤ m := by
    rw [State.current, hunties.1.token, State.symbol, hunties.2]
    exact Nat.le_trans (Nat.le_of_eq (hend.power ht)) (Nat.zero_le m)
  cases operators_eq_of_le hoperators hpower
  exact hunties.1

/-! ## Whole sources -/

namespace State.Linked

theorem expression (h : s.Linked) (ht : t.Stops) (hs : s.Poised t) {m : Nat} {top : SymbolId}
    (hexpression : Parse.expression t fuel m s = some (top, s')) : s'.Linked := by
  cases he : s.endSymbol? with
  | none =>
    exact ((tied_expression_operators ht fuel).1 m s top s' hs h (h.fresh he) hexpression).linked
  | some e => exact h.of_unties (unties_expression_of_end ht hs he hexpression)

theorem enterStatement (h : s.Linked) (hs : s.Poised t) : (s.enterStatement t).Linked := by
  have hunties := unties_reserve (s.advance t) s.token
  have halone : (((s.advance t).reserve s.token).symbol s.token).Alone := by
    refine ⟨?_, ?_⟩
    · rw [hunties.ties.first?, (ties_advance t s).1.first?]
      exact h.alone_token.first?
    · rw [hunties.ties.second?, (ties_advance t s).1.second?]
      exact h.alone_token.second?
  exact ((h.advance hs.sound).of_unties hunties).of_unties
    (unties_of_alone halone (fun _ => rfl) (fun _ => rfl) (fun _ => nofun) fun _ => nofun)

theorem piece (h : s.Linked) (ht : t.Stops) (hs : s.Poised t) (hpiece : Piece t s s') :
    s'.Linked := by
  cases hpiece with
  | advance => exact h.advance hs.sound
  | report => exact h.of_unties (unties_of_symbols rfl rfl rfl)
  | expression hexpression => exact h.expression ht hs hexpression
  | keyword => exact h.enterStatement hs
  | @member _ keyword hname =>
    have hplain := (hs.plain_name hname).2
    exact (h.of_unties (unties_define h.alone_token keyword)).advance
      (hs.sound.define hplain keyword).sound
  | dimension => exact h.of_unties (unties_modifyDeclaration _ _ _)
  | forward keyword htag => exact h.of_unties (unties_define (h.alone_of_name htag.kind) keyword)
  | typedef keyword body hname =>
    have hplain := (hs.plain_name hname).2
    have hdefine := hs.sound.define hplain keyword
    have hbody := hdefine.sound.modifyDeclaration (hdefine.plain _ hplain)
      ({ · with innerScope? := some body })
    exact ((h.of_unties (unties_define h.alone_token keyword)).of_unties
      (unties_modifyDeclaration _ _ _)).advance hbody.sound
  | @aliased _ tag keyword hname hlt =>
    have hplain := (hs.plain_name hname).2
    exact (h.of_unties (unties_defineAlias h.alone_token keyword tag)).advance
      (hs.sound.defineAlias hplain (hs.sound.plain_of_lt hlt) keyword).sound

theorem enterBody (h : s.Linked) (hs : s.Poised t) (keyword : SymbolId) {tag? : Option SymbolId}
    (htag : ∀ tag ∈ tag?, s.PassedName tag) : (s.enterBody t keyword tag?).Linked := by
  have hdefine : (tag?.elim s fun tag => s.define tag keyword).Linked ∧
      (tag?.elim s fun tag => s.define tag keyword).Sound t := by
    cases tag? with
    | none => exact ⟨h, hs.sound⟩
    | some tag =>
      have hpassed := htag tag rfl
      exact ⟨h.of_unties (unties_define (h.alone_of_name hpassed.kind) keyword),
        (hs.sound.define (hs.sound.plain_of_lt hpassed.lt) keyword).sound⟩
  exact (hdefine.1.expect hdefine.2 openBrace).of_unties (unties_of_symbols rfl rfl rfl)

theorem leaveBody (h : s.Linked) (hs : s.Poised t) (tag? : Option SymbolId) (body : ScopeId) :
    (s.leaveBody t tag? body).Linked := by
  have hclose : (s.closeScope.expect t closeBrace).Linked :=
    (h.of_unties (unties_closeScope s)).expect hs.sound.closeScope.sound closeBrace
  cases tag? with
  | none => exact hclose
  | some tag => exact hclose.of_unties (unties_modifyDeclaration _ _ _)

theorem course (h : s.Linked) (ht : t.Stops) (hs : s.Poised t) (hcourse : Course t s s') :
    s'.Linked := by
  induction hcourse with
  | refl => exact h
  | piece hcourse hpiece ih => exact (ih h hs).piece ht (hcourse.proceeds ht hs).poised hpiece
  | block keyword hcourse htag hbody ih ihbody =>
    have hs₁ := (hcourse.proceeds ht hs).poised
    have henter := (hs₁.enterBody keyword fun tag hmem => (htag tag hmem).toPassed).poised
    have hinside := ihbody ((ih h hs).enterBody hs₁ keyword htag) henter
    exact hinside.leaveBody (hbody.proceeds ht henter).poised _ _

end State.Linked

theorem linked_ofLexemes (t : SymbolTable) (lexemes : List Lexeme) (endPosition : Position) :
    ((State.ofLexemes lexemes endPosition).advance t).Linked := by
  obtain ⟨hties, hfits⟩ := ties_advance t (.ofLexemes lexemes endPosition)
  -- nothing has been read at the start, so nothing is tied to anything
  have halone (p : SymbolId) : ((State.ofLexemes lexemes endPosition).symbol p).Alone := ⟨rfl, rfl⟩
  have hnone (p x : SymbolId) :
      ¬HasOperand ((State.ofLexemes lexemes endPosition).advance t).symbol p x := fun hx =>
    not_hasOperand_of_alone (halone p) (hties.hasOperand_iff.1 hx)
  refine ⟨⟨fun p => hfits p ((halone p).fits nofun nofun), ?_, ?_, ?_, ?_⟩, ?_, ?_, ?_⟩
  · exact fun p l r hfirst _ => absurd (.inl hfirst) (hnone p l)
  · exact fun p r hsecond => absurd (.inr hsecond) (hnone p r)
  · exact fun p o hfirst _ => absurd (.inl hfirst) (hnone p o)
  · exact fun p q x hx => absurd hx (hnone p x)
  · exact fun p x hx => absurd hx (hnone p x)
  · exact fun p x hx => absurd hx (hnone p x)
  · exact fun _ p => hnone p _

end CStruct.Parse

namespace CStruct.TranslationUnit

open Relation

/-- The operators of a source stand over their operands in order and without circles: all of a left
operand stands before its operator, and all of a right one, or of the operand of a prefix operator,
behind it. -/
structure IsInorderForest (u : TranslationUnit) : Prop where
  forest : Forest u.symbol
  binary_iff : ∀ p, (u.symbol p).first?.isSome ∧ (u.symbol p).second?.isSome ↔
    (u.symbol p).kind = .binary
  unary_iff : ∀ p, (u.symbol p).first?.isSome ∧ (u.symbol p).second? = none ↔
    (u.symbol p).kind = .unary
  alone_iff : ∀ p, (u.symbol p).first? = none ∧ (u.symbol p).second? = none ↔
    (u.symbol p).kind ≠ .binary ∧ (u.symbol p).kind ≠ .unary
  once : ∀ p x, (u.symbol p).first? = some x → (u.symbol p).second? ≠ some x
  lt_size : ∀ p x, HasOperand u.symbol p x → p < u.symbols.size ∧ x < u.symbols.size
  acyclic : ∀ p, ¬TransGen (HasOperand u.symbol) p p

/-- Whatever is read, errors or not: a symbol has two operands when it is a binary operator, one when
it is a prefix operator and none otherwise, the operands stand in order, and no symbol is an operand
twice. -/
theorem operands_inorder {t : SymbolTable} (ht : t.Stops) :
    (∀ lexemes endPosition u, ofLexemes? t lexemes endPosition = some u → u.IsInorderForest) ∧
      ∀ (E : PatternEngine) (lexer : Lexer E Lexeme) u, ofLexer? t lexer = .ok (some u) →
        u.IsInorderForest := by
  have hforest (lexemes : List Lexeme) (endPosition : Position) (u : TranslationUnit)
      (hu : ofLexemes? t lexemes endPosition = some u) : u.IsInorderForest := by
    have hpoised := Parse.poised_ofLexemes t lexemes endPosition
    obtain ⟨⟨names, s⟩, hs, rfl⟩ := Option.map_eq_some_iff.1 hu
    have hcourse := Parse.course_program ht hpoised hs
    have hlinked := (Parse.linked_ofLexemes t lexemes endPosition).course ht hpoised hcourse
    have htoken := (hcourse.proceeds ht hpoised).leads.sound.token_lt
    refine ⟨hlinked.forest, fun p => (hlinked.forest.fits p).binary_iff,
      fun p => (hlinked.forest.fits p).unary_iff, fun p => (hlinked.forest.fits p).alone_iff,
      fun p x => hlinked.forest.first?_ne_second?, fun p x hx => ⟨?_, ?_⟩, hlinked.forest.acyclic⟩
    · exact Nat.lt_trans (hlinked.lt p x hx) htoken
    · exact Nat.lt_of_le_of_lt (hlinked.le p x hx) htoken
  refine ⟨hforest, fun E lexer u hu => ?_⟩
  unfold ofLexer? at hu
  cases hlexer : lexer.toEnd with
  | error e =>
    rw [hlexer] at hu
    cases hu
  | ok result =>
    rw [hlexer] at hu
    exact hforest result.1 result.2.position u (Except.ok.inj hu)

/-- In `1 + -` the end of the source is the operand of the sign, and the sign that of the sum. -/
theorem operands_inorder_of_unfinished_sum :
    Parse.arithmetic.Stops ∧ ∃ u, ofLexemes? Parse.arithmetic
        [⟨.number, "1", {}⟩, ⟨.operator, "+", {}⟩, ⟨.operator, "-", {}⟩] {} = some u ∧
      (u.symbol 1).first? = some 0 ∧ (u.symbol 1).second? = some 2 ∧
      (u.symbol 2).first? = some 3 ∧ u.hasErrors = true ∧ u.IsInorderForest := by
  have hlinks : (ofLexemes? Parse.arithmetic
      [⟨.number, "1", {}⟩, ⟨.operator, "+", {}⟩, ⟨.operator, "-", {}⟩] {}).any (fun u =>
        (u.symbol 1).first? = some 0 ∧ (u.symbol 1).second? = some 2 ∧
          (u.symbol 2).first? = some 3 ∧ u.hasErrors = true) = true := by decide +kernel
  obtain ⟨hsome, hlinks⟩ := (Option.any_eq_true_iff_get _ _).1 hlinks
  have hu := (Option.some_get hsome).symm
  obtain ⟨hleft, hright, hoperand, herrors⟩ := of_decide_eq_true hlinks
  exact ⟨Parse.stops_arithmetic, _, hu, hleft, hright, hoperand, herrors,
    (operands_inorder Parse.stops_arithmetic).1 _ _ _ hu⟩

end CStruct.TranslationUnit
