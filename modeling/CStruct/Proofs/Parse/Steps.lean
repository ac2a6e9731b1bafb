import CStruct.Proofs.Parse.Naming

/-!
# The steps of reading

Reading a source makes steps of few kinds, and the body of a struct is a block of steps of its own.
`ExpressionStep`, `Step` and `Run` say which they are and what is known of the symbols that a step
changes: they have been passed, that is, they were read before the token. What every step keeps, and
every block, is kept by every run.
-/

namespace CStruct.Parse

open SymbolTable

namespace State

/-! ## Parts of a struct -/

/-- Declares the tag of a struct, if it has one, and goes into its body. -/
def enterBody (t : SymbolTable) (keyword : SymbolId) (tag? : Option SymbolId) (s : State) : State :=
  ((tag?.elim s fun tag => s.define tag keyword).expect t openBrace).openScope

/-- Goes out of the body of a struct and gives it to the tag. -/
def leaveBody (t : SymbolTable) (tag? : Option SymbolId) (body : ScopeId) (s : State) : State :=
  let s := s.closeScope.expect t closeBrace
  tag?.elim s fun tag => s.setBody tag body

/-! ## What is known of symbols -/

/-- Nothing has been declared with the symbol. -/
def Undeclared (s : State) (id : SymbolId) : Prop := (s.symbol id).declaration? = none

/-- The symbol has been read before the token, and nothing has been declared with it. -/
structure Passed (s : State) (id : SymbolId) : Prop where
  lt : id < s.token
  undeclared : s.Undeclared id

end State

open State

/-! ## Steps -/

/-- A step in an expression. -/
inductive ExpressionStep (t : SymbolTable) : State → State → Prop
  | advance (s : State) : ExpressionStep t s (s.advance t)
  | report (s : State) (id : SymbolId) (problem : Problem) :
    ExpressionStep t s (s.report id problem)
  | reserve {s : State} {keyword : SymbolId} (hpassed : s.Passed keyword) :
    ExpressionStep t s (s.reserve keyword)
  | operand {s : State} {operator : SymbolId} (operand : SymbolId) (hpassed : s.Passed operator) :
    ExpressionStep t s (s.setOperand operator operand)
  | operands {s : State} {operator : SymbolId} (left right : SymbolId)
    (hpassed : s.Passed operator) : ExpressionStep t s (s.setOperands operator left right)

/-- A step of reading. A name is declared when it is the token, and passed at once, but for the tag
of a struct, which has been passed before. -/
inductive Step (t : SymbolTable) : State → State → Prop
  | expression {s s' : State} (h : ExpressionStep t s s') : Step t s s'
  | keyword {s : State} {keyword : SymbolId} (hpassed : s.Passed keyword) :
    Step t s (s.modifySymbol keyword ({ · with kind := .statement }))
  | member {s : State} {keyword : SymbolId} (hname : s.current.kind = .name)
    (hkeyword : (s.symbol keyword).role.std = some .member) :
    Step t s ((s.define s.token keyword).advance t)
  | dimension {s : State} {name : SymbolId} (length : SymbolId) (hlt : name < s.token) :
    Step t s (s.modifyDeclaration name ({ · with dimension? := some length }))
  | forward {s : State} {tag : SymbolId} (keyword : SymbolId) (htag : s.Passed tag)
    (hnew : s.declaresStruct tag = false) : Step t s (s.define tag keyword)
  | typedef {s : State} (keyword : SymbolId) (body : ScopeId) (hname : s.current.kind = .name) :
    Step t s (((s.define s.token keyword).setBody s.token body).advance t)
  | aliased {s : State} {tag : SymbolId} (keyword : SymbolId) (hname : s.current.kind = .name)
    (hlt : tag < s.token) : Step t s ((s.defineAlias s.token keyword tag).advance t)

/-- Steps one after the other. The body of a struct is read in a scope of its own. -/
inductive Run (t : SymbolTable) : State → State → Prop
  | refl (s : State) : Run t s s
  | step {s s' s'' : State} (h : Run t s s') (hstep : Step t s' s'') : Run t s s''
  | block {s s₁ s₂ : State} (keyword : SymbolId) {tag? : Option SymbolId} (h : Run t s s₁)
    (htag : ∀ tag ∈ tag?, s₁.Passed tag) (hbody : Run t (s₁.enterBody t keyword tag?) s₂) :
    Run t s (s₂.leaveBody t tag? (s₁.enterBody t keyword tag?).scope)

namespace Run

variable {t : SymbolTable} {s s' s'' : State}

theorem of_step (h : Step t s s') : Run t s s' := .step (.refl s) h

theorem of_expression (h : ExpressionStep t s s') : Run t s s' := of_step (.expression h)

theorem trans (h : Run t s s') (h' : Run t s' s'') : Run t s s'' := by
  induction h' with
  | refl => exact h
  | step _ hstep ih => exact .step (ih h) hstep
  | block keyword _ htag hbody ih _ => exact .block keyword (ih h) htag hbody

theorem advance (s : State) : Run t s (s.advance t) := of_expression (.advance s)

theorem report (s : State) (id : SymbolId) (problem : Problem) : Run t s (s.report id problem) :=
  of_expression (.report s id problem)

end Run

/-! ## Every step goes on -/

namespace State

variable {t : SymbolTable} {s s' s'' : State}

/-- The token has been read, and nothing has been declared with it. -/
structure Poised (t : SymbolTable) (s : State) : Prop where
  sound : s.Sound t
  undeclared : s.Undeclared s.token

/-- What all steps do: they lead on to another state that is poised, and never back. -/
structure Proceeds (t : SymbolTable) (s s' : State) : Prop where
  leads : s.Leads t s'
  undeclared : s'.Undeclared s'.token
  token_le : s.token ≤ s'.token

theorem Proceeds.poised (h : s.Proceeds t s') : s'.Poised t := ⟨h.leads.sound, h.undeclared⟩

theorem Proceeds.trans (h : s.Proceeds t s') (h' : s'.Proceeds t s'') : s.Proceeds t s'' :=
  ⟨h.leads.trans h'.leads, h'.undeclared, Nat.le_trans h.token_le h'.token_le⟩

/-- What has been passed is not the end. -/
theorem Sound.plain_of_lt (h : s.Sound t) {id : SymbolId} (hid : id < s.token) : s.Plain id := by
  refine ⟨Nat.lt_trans hid h.token_lt, fun hend => ?_⟩
  exact absurd (h.atEnd id hend).2.1 (Nat.ne_of_gt hid)

/-- A new token is not declared yet. -/
theorem undeclared_advance (he : s.endSymbol? = none) :
    (s.advance t).Undeclared (s.advance t).token := by
  rw [token_advance he]
  cases hnext : s.pending.dropWhile Lexeme.isComment with
  | nil =>
    rw [advance_eq_end he hnext]
    exact congrArg Symbol.declaration? (symbol_push (s.afterComments []) _)
  | cons l ls =>
    cases hp : s.prototype? t l with
    | some p =>
      rw [advance_eq_push hnext hp]
      exact congrArg Symbol.declaration? (symbol_push (s.afterComments ls) _)
    | none =>
      rw [advance_eq_unknown hnext hp]
      exact congrArg Symbol.declaration? (symbol_push ((s.afterComments ls).reportAt _ _) _)

theorem advance_of_some (h : s.Sound t) {e : SymbolId} (he : s.endSymbol? = some e) :
    ∃ cs, s.advance t = { s with comments := cs } := by
  obtain ⟨hpending, htoken, -⟩ := h.atEnd e he
  rw [h.advance_of_end he, ← hpending, ← htoken]
  exact ⟨_, rfl⟩

/-- The token is made a name and passed. -/
theorem Leads.proceeds_advance (h : s.Leads t s') (htoken : s'.token = s.token)
    (he : s'.endSymbol? = none) : s.Proceeds t (s'.advance t) := by
  refine ⟨h.trans (h.sound.advance), undeclared_advance he, ?_⟩
  rw [token_advance he, ← htoken]
  exact Nat.le_of_lt h.sound.token_lt

namespace Poised

theorem refl (h : s.Poised t) : s.Proceeds t s := ⟨.refl h.sound, h.undeclared, Nat.le_refl _⟩

/-- A step that leaves the symbols and the lexemes alone. -/
theorem of_eq (h : s.Poised t) (pending : s'.pending = s.pending) (symbols : s'.symbols = s.symbols)
    (token : s'.token = s.token) (endSymbol : s'.endSymbol? = s.endSymbol?) : s.Proceeds t s' := by
  refine ⟨h.sound.leads_of_eq pending symbols token endSymbol, ?_, Nat.le_of_eq token.symm⟩
  rw [Undeclared, symbol, symbols, token]
  exact h.undeclared

theorem advance (h : s.Poised t) : s.Proceeds t (s.advance t) := by
  cases he : s.endSymbol? with
  | none =>
    refine ⟨h.sound.advance, undeclared_advance he, ?_⟩
    rw [token_advance he]
    exact Nat.le_of_lt h.sound.token_lt
  | some e =>
    obtain ⟨cs, heq⟩ := advance_of_some h.sound he
    rw [heq]
    exact h.of_eq rfl rfl rfl rfl

theorem expect (h : s.Poised t) (id : String) : s.Proceeds t (s.expect t id) := by
  unfold State.expect
  split
  · exact h.advance
  · have hreport : s.Proceeds t (s.reportExpected id) := h.of_eq rfl rfl rfl rfl
    exact hreport.trans (hreport.poised.advance)

theorem closeScope (h : s.Poised t) : s.Proceeds t s.closeScope := by
  unfold State.closeScope
  split
  · exact h.refl
  · exact h.of_eq rfl rfl rfl rfl

/-- The token stays as it is when a symbol before it is changed. -/
theorem modifySymbol (h : s.Poised t) {id : SymbolId} (hid : id < s.token) (f : Symbol → Symbol) :
    s.Proceeds t (s.modifySymbol id f) := by
  refine ⟨h.sound.modifySymbol (h.sound.plain_of_lt hid) f, ?_, Nat.le_refl _⟩
  show ((s.modifySymbol id f).symbol s.token).declaration? = none
  rw [symbol_modifySymbol_of_ne (Nat.ne_of_gt hid)]
  exact h.undeclared

theorem modifyDeclaration (h : s.Poised t) {id : SymbolId} (hid : id < s.token)
    (f : Declaration → Declaration) : s.Proceeds t (s.modifyDeclaration id f) :=
  h.modifySymbol hid _

theorem define (h : s.Poised t) {name : SymbolId} (hname : name < s.token) (type : SymbolId) :
    s.Proceeds t (s.define name type) := by
  obtain ⟨ds, heq⟩ := define_eq s name type
  rw [heq]
  have hreport : s.Proceeds t { s with diagnostics := ds } := h.of_eq rfl rfl rfl rfl
  have hdeclare : s.Proceeds t ({ s with diagnostics := ds }.declare name type) :=
    hreport.trans (hreport.poised.modifySymbol hname _)
  exact hdeclare.trans (hdeclare.poised.of_eq rfl rfl rfl rfl)

theorem reserve (h : s.Poised t) {keyword : SymbolId} (hkeyword : keyword < s.token) :
    s.Proceeds t (s.reserve keyword) := by
  rcases reserve_cases s keyword with heq | ⟨ds, -, heq⟩
  · rw [heq]
    exact h.refl
  · rw [heq]
    have hreport : s.Proceeds t { s with diagnostics := ds } := h.of_eq rfl rfl rfl rfl
    have hmark := hreport.trans (hreport.poised.modifySymbol hkeyword ({ · with reserved := true }))
    exact hmark.trans (hmark.poised.of_eq rfl rfl rfl rfl)

theorem plain_name (h : s.Poised t) (hname : s.current.kind = .name) :
    s.endSymbol? = none ∧ s.Plain s.token := by
  have he := h.sound.not_end hname
  exact ⟨he, h.sound.plain_token he⟩

theorem expressionStep (h : s.Poised t) (hstep : ExpressionStep t s s') :
    s.Proceeds t s' := by
  cases hstep with
  | advance => exact h.advance
  | report id problem => exact h.of_eq rfl rfl rfl rfl
  | reserve hpassed => exact h.reserve hpassed.lt
  | operand o hpassed => exact h.modifySymbol hpassed.lt _
  | operands l r hpassed => exact h.modifySymbol hpassed.lt _

theorem step (h : s.Poised t) (hstep : Step t s s') : s.Proceeds t s' := by
  cases hstep with
  | expression hstep => exact h.expressionStep hstep
  | keyword hpassed => exact h.modifySymbol hpassed.lt _
  | dimension length hlt => exact h.modifyDeclaration hlt _
  | forward keyword htag => exact h.define htag.lt keyword
  | @member keyword hname =>
    obtain ⟨he, hplain⟩ := h.plain_name hname
    apply (h.sound.define hplain keyword).proceeds_advance (token_define _ _ _)
    rw [endSymbol?_define, he]
  | typedef keyword body hname =>
    obtain ⟨he, hplain⟩ := h.plain_name hname
    have hdefine := h.sound.define hplain keyword
    have hbody := hdefine.sound.modifyDeclaration (hdefine.plain _ hplain)
      ({ · with innerScope? := some body })
    apply (hdefine.trans hbody).proceeds_advance
    · exact token_define _ _ _
    · show (s.define s.token keyword).endSymbol? = none
      rw [endSymbol?_define, he]
  | aliased keyword hname hlt =>
    obtain ⟨he, hplain⟩ := h.plain_name hname
    have hleads := h.sound.defineAlias hplain (h.sound.plain_of_lt hlt) keyword
    apply hleads.proceeds_advance (token_defineAlias _ _ _ _)
    rw [endSymbol?_defineAlias, he]

/-! ### Blocks -/

theorem enterBody (h : s.Poised t) (keyword : SymbolId) {tag? : Option SymbolId}
    (htag : ∀ tag ∈ tag?, s.Passed tag) : s.Proceeds t (s.enterBody t keyword tag?) := by
  have hdefine : s.Proceeds t (tag?.elim s fun tag => s.define tag keyword) := by
    cases tag? with
    | none => exact h.refl
    | some tag => exact h.define (htag tag rfl).lt keyword
  have hexpect := hdefine.trans (hdefine.poised.expect openBrace)
  exact hexpect.trans (hexpect.poised.of_eq rfl rfl rfl rfl)

theorem leaveBody (h : s.Poised t) {tag? : Option SymbolId} (body : ScopeId)
    (htag : ∀ tag ∈ tag?, tag < s.token) : s.Proceeds t (s.leaveBody t tag? body) := by
  have hclose := h.closeScope.trans (h.closeScope.poised.expect closeBrace)
  unfold State.leaveBody
  cases tag? with
  | none => exact hclose
  | some tag =>
    have hlt := Nat.lt_of_lt_of_le (htag tag rfl) hclose.token_le
    exact hclose.trans (hclose.poised.modifyDeclaration hlt _)

/-- A run proceeds as its steps do. -/
theorem run (h : s.Poised t) (hrun : Run t s s') : s.Proceeds t s' := by
  induction hrun with
  | refl => exact h.refl
  | step _ hstep ih => exact (ih h).trans ((ih h).poised.step hstep)
  | block keyword _ htag _ ih ihbody =>
    have hbefore := ih h
    have henter := hbefore.poised.enterBody keyword htag
    have hinside := henter.trans (ihbody henter.poised)
    refine (hbefore.trans hinside).trans (hinside.poised.leaveBody _ fun tag hmem => ?_)
    exact Nat.lt_of_lt_of_le (htag tag hmem).lt hinside.token_le

end Poised

end State

/-- Reading a source starts poised. -/
theorem poised_ofLexemes (t : SymbolTable) (lexemes : List Lexeme)
    (endPosition : Position) : ((State.ofLexemes lexemes endPosition).advance t).Poised t :=
  ⟨sound_ofLexemes t lexemes endPosition, undeclared_advance rfl⟩

end CStruct.Parse
