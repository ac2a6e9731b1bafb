import CStruct.Parse.Declaration
import CStruct.Parse.Sound

/-!
# Reading a source comes to an end

Every reader passes a lexeme, as long as there is one, and at the end of the source nothing goes on:
the fuel of the readers is never short. The main statement is `program_isSome`: a source is always
read to its end when the end of the input stops every expression, and is what statements stop at.
-/

namespace CStruct.Parse

open SymbolTable State

/-! ## Expressions -/

variable {t : SymbolTable}

/-- A reader that answers in every state that `s` leads to. -/
def Answers (t : SymbolTable) (read : ExpressionReader) (s : State) : Prop :=
  ∀ bound s', s.Leads t s' → ∃ top s'', read bound s' = some (top, s'') ∧ s'.Leads t s''

theorem nullDenotation_isSome {read : ExpressionReader} {token : SymbolId} {s : State}
    (h : s.Sound t)
    (hread : (s.symbol token).role.nud = some .prefixed → s.Plain token ∧ Answers t read s) :
    ∃ s', nullDenotation read token s = some s' ∧ s.Leads t s' := by
  unfold nullDenotation
  split
  · exact ⟨s, rfl, Leads.refl h⟩
  · rename_i hnud
    obtain ⟨p, hr⟩ := hread hnud
    have h₁ := h.reserve p
    obtain ⟨top, s', he, h₂⟩ := hr prefixPower _ h₁
    have h₃ := h₁.trans h₂
    refine ⟨_, by rw [he]; rfl, h₃.trans (h₃.sound.modifySymbol (h₃.plain _ p) _)⟩
  · exact ⟨_, rfl, h.report _ _⟩

theorem leftDenotation_isSome {read : ExpressionReader} {token : SymbolId} (left : SymbolId)
    {s : State} (h : s.Sound t) (p : s.Plain token) (hr : Answers t read s) :
    ∃ s', leftDenotation read token left s = some s' ∧ s.Leads t s' := by
  have joined : ∀ bound, ∃ s', rightOperand read token left bound s = some s' ∧ s.Leads t s' := by
    intro bound
    obtain ⟨top, s', he, h₁⟩ := hr bound s (Leads.refl h)
    exact ⟨_, by rw [rightOperand, he]; rfl, h₁.trans (h₁.sound.modifySymbol (h₁.plain _ p) _)⟩
  unfold leftDenotation
  dsimp only
  split
  · exact joined _
  · exact joined _
  · exact ⟨_, rfl, h.report _ _⟩

/-- With more fuel than there is left to pass, an expression is read to its end. -/
def ReadsExpressions (t : SymbolTable) (fuel : Nat) : Prop :=
  ∀ bound s, s.Sound t → s.left < fuel →
    ∃ top s', expression t fuel bound s = some (top, s') ∧ s.Advances t s'

/-- At the end no operator goes on, so that no fuel is needed there. -/
def ReadsOperators (t : SymbolTable) (fuel : Nat) : Prop :=
  ∀ bound left s, s.Sound t → (s.endSymbol? = none → s.left < fuel) →
    ∃ top s', operators t fuel bound left s = some (top, s') ∧ s.Leads t s'

section Fuel

variable {fuel : Nat}

theorem ReadsExpressions.answers (h : ReadsExpressions t fuel) {s : State} (hn : s.left < fuel) :
    Answers t (expression t fuel) s := by
  intro bound s' h'
  obtain ⟨top, s'', he, ha⟩ := h bound s' h'.sound (h'.left_lt hn)
  exact ⟨top, s'', he, ha.leads⟩

theorem ReadsExpressions.succ (ht : t.Stops) (hexpressions : ReadsExpressions t fuel)
    (hoperators : ReadsOperators t fuel) : ReadsExpressions t (fuel + 1) := by
  intro bound s h hn
  have h₁ := h.advances_advance
  have hnull : ∃ s', nullDenotation (expression t fuel) s.token (s.advance t) = some s' ∧
      (s.advance t).Leads t s' := by
    refine nullDenotation_isSome h₁.leads.sound fun hnud => ?_
    cases he : s.endSymbol? with
    | none =>
      have := h₁.left_lt he
      exact ⟨h₁.leads.plain _ (h.plain_token he), hexpressions.answers (by omega)⟩
    | some e =>
      -- the end of the input is no prefix operator
      obtain ⟨-, htok, hx⟩ := h.atEnd e he
      rw [h.advance_of_end he, htok] at hnud
      exact absurd hnud (hx.nud ht)
  obtain ⟨s₂, hs₂, h₂⟩ := hnull
  have h₃ := h₁.trans h₂
  obtain ⟨top, s', ho, h₄⟩ := hoperators bound s.token s₂ h₃.leads.sound fun he => by
    cases he' : s.endSymbol? with
    | none =>
      have := h₃.left_lt he'
      omega
    | some e =>
      have := left_eq_zero h he'
      have := h₃.leads.left_le
      have := left_pos he
      omega
  exact ⟨top, s', by rw [expression, hs₂]; exact ho, h₃.trans h₄⟩

theorem endSymbol?_of_power (ht : t.Stops) {s : State} (h : s.Sound t) {bound : Nat}
    (hb : bound < s.current.role.bindingPower) : s.endSymbol? = none := by
  refine Classical.byContradiction fun he => ?_
  rw [(h.current he).power ht] at hb
  exact absurd hb (Nat.not_lt_zero _)

theorem ReadsOperators.zero (ht : t.Stops) : ReadsOperators t 0 := by
  intro bound left s h hn
  rw [operators]
  by_cases hb : bound < s.current.role.bindingPower
  · exact absurd (hn (endSymbol?_of_power ht h hb)) (Nat.not_lt_zero _)
  · exact ⟨left, s, by rw [if_neg hb], Leads.refl h⟩

theorem ReadsOperators.succ (ht : t.Stops) (hexpressions : ReadsExpressions t fuel)
    (hoperators : ReadsOperators t fuel) : ReadsOperators t (fuel + 1) := by
  intro bound left s h hn
  rw [operators]
  by_cases hb : bound < s.current.role.bindingPower
  · have he := endSymbol?_of_power ht h hb
    have h₁ := h.advances_advance
    have hlt := h₁.left_lt he
    have hn := hn he
    obtain ⟨s₂, hs₂, h₂⟩ := leftDenotation_isSome left h₁.leads.sound
      (h₁.leads.plain _ (h.plain_token he)) (hexpressions.answers (by omega))
    have h₃ := h₁.leads.trans h₂
    have := h₂.left_le
    obtain ⟨top, s', ho, h₄⟩ := hoperators bound s.token s₂ h₃.sound fun _ => by omega
    refine ⟨top, s', ?_, h₃.trans h₄⟩
    rw [if_pos hb, hs₂]
    exact ho
  · exact ⟨left, s, by rw [if_neg hb], Leads.refl h⟩

/-- The two readers call each other, so that the induction on the fuel is for both at once. -/
theorem readsExpressions_readsOperators (ht : t.Stops) (fuel : Nat) :
    ReadsExpressions t fuel ∧ ReadsOperators t fuel := by
  induction fuel with
  | zero => exact ⟨fun _ _ _ hn => absurd hn (Nat.not_lt_zero _), .zero ht⟩
  | succ fuel ih => exact ⟨ih.1.succ ht ih.2, .succ ht ih.1 ih.2⟩

end Fuel

theorem expression_isSome (ht : t.Stops) (bound : Nat) {s : State}
    (h : s.Sound t) :
    ∃ top s', expression t s.fuel bound s = some (top, s') ∧ s.Advances t s' :=
  (readsExpressions_readsOperators ht s.fuel).1 bound s h (left_lt_fuel s)

/-! ## Members -/

theorem current_of_check {s : State} {id : String} (h : s.check id = true) : s.current.id = id :=
  eq_of_beq h

/-- A token that is a name is not the end. -/
theorem State.Sound.not_end {s : State} (h : s.Sound t) (hname : s.current.kind = .name) :
    s.endSymbol? = none := by
  refine Classical.byContradiction fun he => ?_
  rw [(h.current he).kind] at hname
  cases hname

/-- A token that goes by another name than the end is not the end. -/
theorem State.Sound.not_end_of_check {s : State} (h : s.Sound t) (ht : t.Ends)
    (hne : s.check endId = false) : s.endSymbol? = none := by
  refine Classical.byContradiction fun he => ?_
  rw [check, (h.current he).id ht, beq_self_eq_true] at hne
  cases hne

theorem dimension_isSome (ht : t.Stops) {s : State} (h : s.Sound t)
    {name : SymbolId} (p : s.Plain name) :
    ∃ s', dimension t name s = some s' ∧ s.Leads t s' := by
  obtain ⟨top, s₁, he, ha⟩ := expression_isSome ht 0 h
  have h₁ := ha.leads
  refine ⟨_, by rw [dimension, he]; rfl, ?_⟩
  dsimp only
  have h₂ : s.Leads t (if (s₁.symbol top).kind = .literal then s₁
      else s₁.report top .dimensionNotLiteral) := by
    split
    · exact h₁
    · exact h₁.trans (h₁.sound.report _ _)
  have h₃ := h₂.trans (h₂.sound.expect "]")
  exact h₃.trans (h₃.sound.modifyDeclaration (h₃.plain _ p) _)

theorem declarator_isSome (ht : t.Stops) {s : State} (h : s.Sound t)
    (keyword : SymbolId) :
    ∃ s', declarator t keyword s = some s' ∧ s.Leads t s' := by
  unfold declarator
  split
  · rename_i hk
    have p := h.plain_token (h.not_end hk)
    have h₁ := h.define p keyword
    have h₂ := h₁.trans (h₁.sound.advance)
    dsimp only
    split
    · have h₃ := h₂.trans (h₂.sound.advance)
      obtain ⟨s', he, h₄⟩ := dimension_isSome ht h₃.sound (h₃.plain _ p)
      exact ⟨s', he, h₃.trans h₄⟩
    · exact ⟨_, rfl, h₂⟩
  · have h₁ := h.report s.token .memberNameMissing
    refine ⟨_, rfl, ?_⟩
    split
    · exact h₁
    · exact h₁.trans (h₁.sound.advance)

/-- A comma that is passed is one symbol less to come, so there is fuel for every declarator. -/
theorem declarators_isSome (ht : t.Ends) (keyword : SymbolId) (fuel : Nat)
    {s : State} (h : s.Sound t) (hn : s.left ≤ fuel) :
    ∃ s', declarators t keyword fuel s = some s' ∧ s.Leads t s' := by
  induction fuel generalizing s with
  | zero =>
    obtain ⟨s₁, he, h₁⟩ := declarator_isSome ht.toStops h keyword
    have hend : s₁.endSymbol? ≠ none := fun hnone => by
      have := left_pos hnone
      have := h₁.left_le
      omega
    have hcheck : s₁.check "," = false := by
      rw [check, (h₁.sound.current hend).id ht]
      decide
    exact ⟨s₁, by simp [declarators, he, hcheck], h₁⟩
  | succ fuel ih =>
    obtain ⟨s₁, he, h₁⟩ := declarator_isSome ht.toStops h keyword
    by_cases hcheck : s₁.check "," = true
    · have hne : s₁.endSymbol? = none := h₁.sound.not_end_of_check ht (by
        rw [check, current_of_check hcheck]
        decide)
      have h₂ := h₁.sound.advances_advance
      have := h₂.left_lt hne
      have := h₁.left_le
      obtain ⟨s', he', h₃⟩ := ih h₂.leads.sound (by omega)
      exact ⟨s', by simp [declarators, he, hcheck, he'], (h₁.trans h₂.leads).trans h₃⟩
    · exact ⟨s₁, by simp [declarators, he, hcheck], h₁⟩

theorem members_isSome (ht : t.Ends) {s : State} (h : s.Sound t)
    (keyword : SymbolId) :
    ∃ s', members t keyword s = some s' ∧ s.Leads t s' := by
  unfold members
  split
  · exact ⟨_, rfl, h.report _ _⟩
  · obtain ⟨s₁, he, h₁⟩ :=
      declarators_isSome ht keyword s.fuel h (Nat.le_of_lt (left_lt_fuel s))
    refine ⟨_, by rw [he]; rfl, ?_⟩
    dsimp only
    split
    · exact h₁.trans (h₁.sound.reportExpected _)
    · exact h₁.trans (h₁.sound.expect _)

/-! ## Structs -/

/-- The tag of a struct, if it has one, is plain. -/
def PlainTag (s : State) (tag? : Option SymbolId) : Prop := ∀ tag, tag? = some tag → s.Plain tag

theorem State.Leads.plainTag {s s' : State} (h : s.Leads t s') {tag? : Option SymbolId}
    (p : PlainTag s tag?) : PlainTag s' tag? :=
  fun tag ht => h.plain tag (p tag ht)

theorem leads_elim {s : State} (h : s.Sound t) {tag? : Option SymbolId} (p : PlainTag s tag?)
    {f : SymbolId → State} (hf : ∀ tag, s.Plain tag → s.Leads t (f tag)) :
    s.Leads t (tag?.elim s f) := by
  cases tag? with
  | none => exact Leads.refl h
  | some tag => exact hf tag (p tag rfl)

theorem leads_forwardDeclaration {s : State} (h : s.Sound t) (keyword : SymbolId)
    {tag? : Option SymbolId} (p : PlainTag s tag?) :
    s.Leads t (forwardDeclaration keyword tag? s).2 := by
  unfold forwardDeclaration
  split
  · exact h.report _ _
  · rename_i tag
    split
    · exact Leads.refl h
    · exact h.define (p tag rfl) keyword

theorem leads_typedefName {s : State} (h : s.Sound t)
    (keyword : SymbolId) {tag? : Option SymbolId} (p : PlainTag s tag?) (body : ScopeId) :
    s.Leads t (typedefName t keyword tag? body s).2 := by
  unfold typedefName
  split
  · rename_i hk
    have q := h.plain_token (h.not_end hk)
    dsimp only
    split
    · rename_i tag
      have h₁ := h.defineAlias q (p tag rfl) keyword
      exact h₁.trans (h₁.sound.advance)
    · have h₁ := h.define q keyword
      have h₂ := h₁.trans (h₁.sound.modifyDeclaration (h₁.plain _ q)
        ({ · with innerScope? := some body }))
      exact h₂.trans (h₂.sound.advance)
  · exact Leads.refl h

theorem leads_structEnd {s : State} (h : s.Sound t)
    (keyword : SymbolId) {tag? : Option SymbolId} (p : PlainTag s tag?) (body : ScopeId) :
    s.Leads t (structEnd t keyword tag? body s).2 := by
  have h₁ := h.closeScope.trans (h.closeScope.sound.expect closeBrace)
  have h₂ := h₁.trans (leads_elim h₁.sound (h₁.plainTag p)
    fun tag q => h₁.sound.modifyDeclaration q ({ · with innerScope? := some body }))
  have h₃ := h₂.trans (leads_typedefName h₂.sound keyword (h₂.plainTag p) body)
  unfold structEnd
  dsimp only
  split
  · have h₄ := h₃.trans (h₃.sound.report keyword .anonymousStruct)
    exact h₄.trans (h₄.sound.expect ";")
  · exact h₃.trans (h₃.sound.expect ";")

theorem structDeclaration_isSome {s : State} (h : s.Sound t)
    {readBody : State → Option State}
    (hbody : ∀ s', s.Leads t s' → ∃ s'', readBody s' = some s'' ∧ s'.Leads t s'')
    (keyword : SymbolId) :
    ∃ name? s', structDeclaration t readBody keyword s = some (name?, s') ∧ s.Leads t s' := by
  unfold structDeclaration
  dsimp only
  -- the token is the tag, if it is a name, and is no end then
  generalize htag : (if s.current.kind = .name then some s.token else none) = tag?
  have p : PlainTag s tag? := by
    intro tag hsome
    rw [← htag] at hsome
    split at hsome
    · rename_i hk
      cases hsome
      exact h.plain_token (h.not_end hk)
    · cases hsome
  have h₁ : s.Leads t (if tag?.isSome then s.advance t else s) := by
    split
    · exact h.advance
    · exact Leads.refl h
  generalize (if tag?.isSome then s.advance t else s) = s₁ at h₁
  split
  · have h₂ := h₁.trans (h₁.sound.advance)
    exact ⟨_, _, rfl, h₂.trans (leads_forwardDeclaration h₂.sound keyword (h₂.plainTag p))⟩
  · have h₂ := h₁.trans (leads_elim h₁.sound (h₁.plainTag p)
      fun tag q => h₁.sound.define q keyword)
    have h₃ := h₂.trans (h₂.sound.expect openBrace)
    have h₄ := h₃.trans h₃.sound.openScope
    obtain ⟨s₅, he, h₅⟩ := hbody _ h₄
    have h₆ := h₄.trans h₅
    exact ⟨_, _, by rw [he]; rfl, h₆.trans (leads_structEnd h₆.sound keyword (h₆.plainTag p) _)⟩

/-! ## Statements -/

theorem advances_enterStatement {s : State} (h : s.Sound t)
    (he : s.endSymbol? = none) : s.Advances t (s.enterStatement t) := by
  have p := h.plain_token he
  have h₁ := h.advances_advance
  have h₂ := h₁.trans (h₁.leads.sound.reserve (h₁.leads.plain _ p))
  exact h₂.trans (h₂.leads.sound.modifySymbol (h₂.leads.plain _ p) _)

theorem statement_isSome (ht : t.Ends) {s : State} (h : s.Sound t)
    (he : s.endSymbol? = none) (readBody : State → Option State)
    (hbody : ∀ s', s.Advances t s' → ∃ s'', readBody s' = some s'' ∧ s'.Leads t s'') :
    ∃ name? s', statement t readBody s = some (name?, s') ∧ s.Advances t s' := by
  have h₁ := advances_enterStatement h he
  unfold statement
  split
  · obtain ⟨name?, s', hs, h₂⟩ := structDeclaration_isSome h₁.leads.sound
      (fun s' h' => hbody s' (h₁.trans h')) s.token
    exact ⟨name?, s', hs, h₁.trans h₂⟩
  · obtain ⟨s', hs, h₂⟩ := members_isSome ht h₁.leads.sound s.token
    exact ⟨none, s', by rw [hs]; rfl, h₁.trans h₂⟩
  · obtain ⟨top, s', hs, h₂⟩ := expression_isSome ht.toStops 0 h
    refine ⟨none, _, by rw [expressionStatement, hs]; rfl, ?_⟩
    dsimp only
    split
    · exact h₂
    · exact h₂.trans (h₂.leads.sound.report _ _)

theorem not_end_of_not_atClose {s : State} (h : s.Sound t) (ht : t.Ends)
    (hc : ¬ s.atClose = true) : s.endSymbol? = none := by
  refine h.not_end_of_check ht ?_
  rw [atClose, Bool.or_eq_true, not_or] at hc
  exact Bool.eq_false_iff.2 hc.2

/-- With as much fuel as there is left to pass, all statements are read. -/
theorem statements_isSome (ht : t.Ends) (fuel : Nat) {s : State}
    (h : s.Sound t) (hn : s.left ≤ fuel) :
    ∃ names s', statements t fuel s = some (names, s') ∧ s.Leads t s' ∧ s'.atClose = true := by
  induction fuel generalizing s with
  | zero =>
    by_cases hc : s.atClose = true
    · exact ⟨[], s, by simp [statements, hc], Leads.refl h, hc⟩
    · have := left_pos (not_end_of_not_atClose h ht hc)
      omega
  | succ fuel ih =>
    by_cases hc : s.atClose = true
    · exact ⟨[], s, by simp [statements, hc], Leads.refl h, hc⟩
    · have he := not_end_of_not_atClose h ht hc
      obtain ⟨name?, s₁, hs₁, h₁⟩ := statement_isSome ht h he
        (fun s => (statements t fuel s).map Prod.snd) fun s' h' => by
          have := h'.left_lt he
          obtain ⟨names, s'', hs, h'', -⟩ := ih h'.leads.sound (by omega)
          exact ⟨s'', by simp [hs], h''⟩
      have := h₁.left_lt he
      obtain ⟨names, s', hs', h', hc'⟩ := ih h₁.leads.sound (by omega)
      exact ⟨name?.toList ++ names, s', by simp [statements, hc, hs₁, hs'], h₁.leads.trans h', hc'⟩

/-! ## Sources -/

/-- With as much fuel as there is left to pass, a source is read to its end. -/
theorem program_isSome (ht : t.Ends) (fuel : Nat) {s : State}
    (h : s.Sound t) (hn : s.left ≤ fuel) :
    ∃ names s', program t fuel s = some (names, s') ∧ s.Leads t s' ∧ s'.check endId = true := by
  induction fuel generalizing s with
  | zero =>
    obtain ⟨names, s₁, hs, h₁, -⟩ := statements_isSome ht s.fuel h (Nat.le_of_lt (left_lt_fuel s))
    have hend : s₁.endSymbol? ≠ none := fun hnone => by
      have := left_pos hnone
      have := h₁.left_le
      omega
    have hc : s₁.check endId = true := by
      rw [check, (h₁.sound.current hend).id ht]
      decide
    exact ⟨names, s₁, by simp [program, hs, hc], h₁, hc⟩
  | succ fuel ih =>
    obtain ⟨names, s₁, hs, h₁, -⟩ := statements_isSome ht s.fuel h (Nat.le_of_lt (left_lt_fuel s))
    by_cases hc : s₁.check endId = true
    · exact ⟨names, s₁, by simp [program, hs, hc], h₁, hc⟩
    · have hne := h₁.sound.not_end_of_check ht (Bool.eq_false_iff.2 hc)
      have h₂ := h₁.sound.report s₁.token (.unexpected s₁.current.value)
      have h₃ := h₂.sound.advances_advance
      have := h₃.left_lt hne
      have := h₂.left_le
      have := h₁.left_le
      obtain ⟨others, s', hs', h', hc'⟩ := ih h₃.leads.sound (by omega)
      exact ⟨names ++ others, s', by simp [program, hs, hc, hs'],
        ((h₁.trans h₂).trans h₃.leads).trans h', hc'⟩

/-- The first symbol of a source makes a sound state. -/
theorem sound_ofLexemes (t : SymbolTable) (lexemes : List Lexeme)
    (endPosition : Position) : ((State.ofLexemes lexemes endPosition).advance t).Sound t :=
  (leads_advance_of_none t rfl).1.sound

end CStruct.Parse
