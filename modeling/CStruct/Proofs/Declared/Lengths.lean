import CStruct.Proofs.Declared.Sources
import CStruct.Proofs.Lexicon.Spelling
import CStruct.Proofs.Parse.Course
import CStruct.Proofs.Scopes.Standing

/-!
# The lengths of arrays

A literal is spelled with digits, because the lexeme that it was made of is. Nothing but the length
of a member is ever noted as one, and a length that is no literal is reported as an error. So where
there is no error, every length is spelled with digits.
-/

namespace CStruct

/-- The text has at least one digit and nothing else. -/
def Text.IsNumeral (text : String) : Prop := text ≠ "" ∧ text.toList.all Char.isDigit = true

namespace Parse

open SymbolTable State

variable {t : SymbolTable} {s s' s'' : State} {d name x : SymbolId}

namespace State

/-! ## Literals -/

/-- The literals are numerals, those that have been read and those that are to come. -/
structure Numeric (s : State) : Prop where
  literal : ∀ id, (s.symbol id).kind = .literal → Text.IsNumeral (s.symbol id).value
  pending : ∀ l ∈ s.pending, l.kind = .number → Text.IsNumeral l.text

theorem Numeric.of_eq (h : s.Numeric) (symbols : s'.symbols = s.symbols)
    (pending : s'.pending = s.pending) : s'.Numeric := by
  refine ⟨fun id => ?_, ?_⟩
  · rw [symbol, symbols]
    exact h.literal id
  · rw [pending]
    exact h.pending

/-- Only a number makes a literal. -/
theorem number_of_kindOf {kind : LexemeKind} (h : kindOf kind = .literal) : kind = .number := by
  cases kind with
  | number => rfl
  | comment => cases h
  | type => cases h
  | name => cases h
  | operator => cases h

theorem Numeric.advance (h : s.Numeric) (t : SymbolTable) : (s.advance t).Numeric := by
  have hnext : ∀ l ∈ s.pending.dropWhile Lexeme.isComment, l.kind = .number →
      Text.IsNumeral l.text :=
    fun l hl => h.pending l ((List.dropWhile_sublist _).subset hl)
  refine ⟨fun id hkind => ?_, fun l hl => ?_⟩
  · by_cases hid : id < s.symbols.size
    · rw [symbol_advance hid] at hkind ⊢
      exact h.literal id hkind
    · rcases advance_cases t s with ⟨l, ls, heq, hadds⟩ | ⟨-, -, hadds⟩ | ⟨-, -, hadds⟩
      · rcases hadds.symbol hid with hnew | hnew
        · rw [hnew] at hkind
          cases hkind
        · rw [List.mem_singleton.1 hnew] at hkind ⊢
          rw [heq] at hnext
          exact hnext l List.mem_cons_self (number_of_kindOf hkind)
      · -- the end is no literal
        rcases hadds.symbol hid with hnew | hnew
        · rw [hnew] at hkind
          cases hkind
        · rw [List.mem_singleton.1 hnew] at hkind
          cases hkind
      · rcases hadds.symbol hid with hnew | hnew
        · rw [hnew] at hkind
          cases hkind
        · cases hnew
  · exact h.pending l (pending_advance.subset hl)

theorem Numeric.touch (h : s.Numeric) {f : Symbol → Symbol} (hf : Touches f) (id : SymbolId) :
    (s.modifySymbol id f).Numeric := by
  refine ⟨fun i hkind => ?_, h.pending⟩
  rw [hf.value_eq]
  rw [Parse.symbol_modifySymbol] at hkind
  split at hkind
  · exact h.literal i (hf.literal _ hkind)
  · exact h.literal i hkind

end State

theorem Change.numeric (h : Change t s s') (hs : s.Numeric) : s'.Numeric := by
  cases h with
  | advance => exact hs.advance t
  | report => exact hs.of_eq rfl rfl
  | touch hplain hf => exact hs.touch hf _
  | bind => exact hs.of_eq rfl rfl
  | openScope => exact hs.of_eq rfl rfl
  | closeScope =>
    unfold State.closeScope
    split
    · exact hs
    · exact hs.of_eq rfl rfl

theorem Changes.numeric (h : Changes t s s') (hs : s.Numeric) : s'.Numeric := by
  induction h with
  | refl => exact hs
  | tail _ hchange ih => exact hchange.numeric ih

/-! ## Spellings stay -/

/-- Whatever becomes of a symbol, it stays spelled as it was read. -/
theorem Change.value (h : Change t s s') (hx : x < s.symbols.size) :
    s.symbols.size ≤ s'.symbols.size ∧ (s'.symbol x).value = (s.symbol x).value := by
  cases h with
  | advance => exact ⟨size_le_advance, by rw [symbol_advance hx]⟩
  | report => exact ⟨Nat.le_refl _, rfl⟩
  | touch hplain hf => exact ⟨Nat.le_of_eq Array.size_modify.symm, hf.value_eq _ _ _⟩
  | bind => exact ⟨Nat.le_refl _, rfl⟩
  | openScope => exact ⟨Nat.le_refl _, rfl⟩
  | closeScope =>
    unfold State.closeScope
    split <;> exact ⟨Nat.le_refl _, rfl⟩

theorem Changes.value (h : Changes t s s') (hx : x < s.symbols.size) :
    s.symbols.size ≤ s'.symbols.size ∧ (s'.symbol x).value = (s.symbol x).value := by
  induction h with
  | refl => exact ⟨Nat.le_refl _, rfl⟩
  | tail _ hchange ih =>
    obtain ⟨hsize, hvalue⟩ := ih
    obtain ⟨hsize', hvalue'⟩ := hchange.value (Nat.lt_of_lt_of_le hx hsize)
    exact ⟨Nat.le_trans hsize hsize', hvalue'.trans hvalue⟩

/-! ## Who has a length -/

/-- Between the two states, no name gets a length. -/
def GivesNoLength (s s' : State) : Prop :=
  ∀ d x, (s'.symbol d).dimension? = some x → (s.symbol d).dimension? = some x

namespace GivesNoLength

theorem refl (s : State) : GivesNoLength s s := fun _ _ h => h

theorem trans (h : GivesNoLength s s') (h' : GivesNoLength s' s'') : GivesNoLength s s'' :=
  fun d x hx => h d x (h' d x hx)

theorem of_symbols (h : s'.symbols = s.symbols) : GivesNoLength s s' := by
  intro d x
  rw [State.symbol, State.symbol, h]
  exact id

theorem modifySymbol {f : Symbol → Symbol}
    (hf : ∀ y n, (f y).dimension? = some n → y.dimension? = some n) (s : State) (id : SymbolId) :
    GivesNoLength s (s.modifySymbol id f) := by
  intro d x hx
  rw [Parse.symbol_modifySymbol] at hx
  split at hx
  · exact hf _ _ hx
  · exact hx

/-- What is known of a name changes, but not its length. -/
theorem modifyDeclaration {f : Declaration → Declaration}
    (hf : ∀ y, (f y).dimension? = y.dimension?) (s : State) (id : SymbolId) :
    GivesNoLength s (s.modifyDeclaration id f) := by
  apply modifySymbol
  intro y n hy
  rw [Symbol.dimension?] at hy ⊢
  cases hdeclaration : y.declaration? with
  | none =>
    rw [hdeclaration] at hy
    cases hy
  | some declaration =>
    rw [hdeclaration] at hy
    exact (hf declaration).symm.trans hy

theorem advance (t : SymbolTable) (s : State) : GivesNoLength s (s.advance t) := by
  intro d x hx
  rcases symbol_advance_cases t s d with hd | hd | ⟨l, hd⟩ | hd
  · rw [hd] at hx
    exact hx
  · rw [hd] at hx
    cases hx
  · rw [hd] at hx
    cases hx
  · rw [hd] at hx
    cases hx

/-- A name that has just been declared has no length yet. -/
theorem declare (s : State) (name type : SymbolId) : GivesNoLength s (s.declare name type) := by
  apply modifySymbol
  intro y n hn
  cases hn

theorem define (s : State) (name type : SymbolId) : GivesNoLength s (s.define name type) := by
  obtain ⟨ds, heq⟩ := define_eq s name type
  rw [heq]
  have hreport : GivesNoLength s { s with diagnostics := ds } := of_symbols rfl
  exact (hreport.trans (declare _ name type)).trans (of_symbols rfl)

theorem defineAlias (s : State) (name type struct : SymbolId) :
    GivesNoLength s (s.defineAlias name type struct) := by
  obtain ⟨ds, heq⟩ := defineAlias_eq s name type struct
  rw [heq]
  have hreport : GivesNoLength s { s with diagnostics := ds } := of_symbols rfl
  have hmark := (hreport.trans (declare _ name type)).trans
    (modifyDeclaration (f := ({ · with isAlias := true })) (fun _ => rfl) _ name)
  have htie := hmark.trans
    (modifyDeclaration (f := ({ · with alias? := some name })) (fun _ => rfl) _ struct)
  dsimp only
  split
  · exact htie
  · exact htie.trans (of_symbols rfl)

theorem reserve (s : State) (keyword : SymbolId) : GivesNoLength s (s.reserve keyword) := by
  rcases reserve_cases s keyword with heq | ⟨ds, -, heq⟩
  · rw [heq]
    exact refl s
  · rw [heq]
    have hreport : GivesNoLength s { s with diagnostics := ds } := of_symbols rfl
    exact (hreport.trans (modifySymbol (f := ({ · with reserved := true })) (fun _ _ => id) _
      keyword)).trans (of_symbols rfl)

theorem setBody (s : State) (struct : SymbolId) (body : ScopeId) :
    GivesNoLength s (s.setBody struct body) :=
  modifyDeclaration (f := ({ · with innerScope? := some body })) (fun _ => rfl) s struct

theorem enterStatement (t : SymbolTable) (s : State) : GivesNoLength s (s.enterStatement t) :=
  ((advance t s).trans (reserve _ s.token)).trans
    (modifySymbol (f := ({ · with kind := .statement })) (fun _ _ => id) _ s.token)

theorem expect (t : SymbolTable) (id : String) (s : State) : GivesNoLength s (s.expect t id) := by
  unfold State.expect
  split
  · exact advance t s
  · exact (of_symbols rfl).trans (advance t (s.reportExpected id))

theorem closeScope (s : State) : GivesNoLength s s.closeScope := by
  unfold State.closeScope
  split <;> exact of_symbols rfl

theorem enterBody (t : SymbolTable) (s : State) (keyword : SymbolId) (tag? : Option SymbolId) :
    GivesNoLength s (s.enterBody t keyword tag?) := by
  have hdefine : GivesNoLength s (tag?.elim s fun tag => s.define tag keyword) := by
    cases tag? with
    | none => exact refl s
    | some tag => exact define s tag keyword
  exact (hdefine.trans (expect t openBrace _)).trans (of_symbols rfl)

theorem leaveBody (t : SymbolTable) (s : State) (tag? : Option SymbolId) (body : ScopeId) :
    GivesNoLength s (s.leaveBody t tag? body) := by
  have hclose := (closeScope s).trans (expect t closeBrace s.closeScope)
  unfold State.leaveBody
  cases tag? with
  | none => exact hclose
  | some tag => exact hclose.trans (setBody _ tag body)

end GivesNoLength

theorem ExpressionStep.givesNoLength (h : ExpressionStep t s s') : GivesNoLength s s' := by
  cases h with
  | advance => exact .advance t s
  | report id problem => exact .of_symbols rfl
  | reserve hpassed => exact .reserve s _
  | operand o hpassed =>
    exact .modifySymbol (f := ({ · with first? := some o, kind := .unary })) (fun _ _ => id) s _
  | operands l r hpassed =>
    exact .modifySymbol (f := ({ · with first? := some l, second? := some r, kind := .binary }))
      (fun _ _ => id) s _

theorem ExpressionRun.givesNoLength (h : ExpressionRun t s s') : GivesNoLength s s' := by
  induction h with
  | refl => exact .refl s
  | tail _ hstep ih => exact ih.trans hstep.givesNoLength

/-! ## Lengths are numerals -/

namespace State

/-- Every length is a numeral, unless there is an error. -/
def Measured (s : State) : Prop :=
  ∀ d x, (s.symbol d).dimension? = some x →
    Text.IsNumeral (s.symbol x).value ∨ s.hasErrors = true

theorem hasErrors_mono (h : s.Grows s') (herrors : s.hasErrors = true) : s'.hasErrors = true := by
  by_contra hclean
  rw [h.hasErrors_eq_false (Bool.eq_false_iff.2 hclean)] at herrors
  cases herrors

/-- A numeral has been read. -/
theorem lt_size_of_isNumeral (h : Text.IsNumeral (s.symbol x).value) : x < s.symbols.size := by
  by_contra hlt
  rw [symbol_of_size_le (Nat.le_of_not_lt hlt)] at h
  exact h.1 rfl

theorem Measured.later (h : s.Measured) (hchanges : Changes t s s') (hgrows : s.Grows s')
    (hlengths : GivesNoLength s s') : s'.Measured := by
  intro d x hx
  rcases h d x (hlengths d x hx) with hnumeral | herrors
  · refine .inl ?_
    rw [(hchanges.value (lt_size_of_isNumeral hnumeral)).2]
    exact hnumeral
  · exact .inr (hasErrors_mono hgrows herrors)

/-- A name gets a length that is a literal, or there is an error. -/
theorem Measured.dimension (h : s.Measured) (hs : s.Numeric) {length : SymbolId}
    (hliteral : (s.symbol length).kind = .literal ∨ s.hasErrors = true) (name : SymbolId) :
    (s.modifyDeclaration name ({ · with dimension? := some length })).Measured := by
  intro d x hx
  rw [State.modifyDeclaration, (touches_declaration _).value_eq]
  change _ ∨ s.hasErrors = true
  rw [symbol_modifyDeclaration] at hx
  split at hx
  · obtain ⟨declaration, hmap, hlength⟩ := Option.bind_eq_some_iff.1 hx
    obtain ⟨before, -, rfl⟩ := Option.map_eq_some_iff.1 hmap
    cases hlength
    exact hliteral.imp_left (hs.literal length)
  · exact h d x hx

end State

theorem Piece.measured (h : Piece t s s') (ht : t.Stops) (hs : s.Poised t) (hnumeric : s.Numeric)
    (hm : s.Measured) : s'.Measured := by
  have hrun := h.run ht hs
  have hlater := hm.later (hrun.changes hs) hrun.grows
  cases h with
  | advance => exact hlater (.advance t s)
  | report id problem => exact hlater (.of_symbols rfl)
  | expression h => exact hlater (steps_expression ht hs h).givesNoLength
  | keyword he => exact hlater (.enterStatement t s)
  | @member _ keyword hname => exact hlater ((GivesNoLength.define s s.token keyword).trans
      (.advance t _))
  | dimension hlt hliteral => exact hm.dimension hnumeric hliteral _
  | @forward _ tag keyword => exact hlater (.define s tag keyword)
  | typedef keyword body hname =>
    exact hlater (((GivesNoLength.define s s.token keyword).trans (.setBody _ s.token body)).trans
      (.advance t _))
  | @aliased _ tag keyword =>
    exact hlater ((GivesNoLength.defineAlias s s.token keyword tag).trans (.advance t _))

theorem Course.measured (h : Course t s s') (ht : t.Stops) (hs : s.Poised t) (hnumeric : s.Numeric)
    (hm : s.Measured) : s'.Measured := by
  induction h with
  | refl => exact hm
  | piece h hpiece ih =>
    have hbefore := h.run ht hs
    exact hpiece.measured ht (hs.run hbefore).poised
      ((hbefore.changes hs).numeric hnumeric) (ih hs hnumeric hm)
  | @block s s₁ s₂ keyword tag? h htag hbody ih ihbody =>
    have hbefore := h.run ht hs
    have hs₁ := (hs.run hbefore).poised
    have hpassed : ∀ tag ∈ tag?, s₁.Passed tag := fun tag hmem => (htag tag hmem).toPassed
    have henter := hs₁.enterBody keyword hpassed
    have hchanges := changes_enterBody (t := t) hs₁ keyword hpassed
    have hnumeric₁ := (hbefore.changes hs).numeric hnumeric
    have hinside := ihbody henter.poised (hchanges.numeric hnumeric₁) ((ih hs hnumeric hm).later
      hchanges (grows_enterBody t s₁ keyword tag?) (.enterBody t s₁ keyword tag?))
    have hproceeds := henter.trans (hbody.proceeds ht henter.poised)
    apply hinside.later (t := t) _ (grows_leaveBody t s₂ tag? _) (.leaveBody t s₂ tag? _)
    exact changes_leaveBody hproceeds.poised _ fun tag hmem =>
      Nat.lt_of_lt_of_le (htag tag hmem).lt hproceeds.token_le

end Parse

namespace TranslationUnit

open SymbolTable Parse Parse.State

variable {t : SymbolTable} {lexemes : List Lexeme} {endPosition : Position} {u : TranslationUnit}

/-- Where there is no error, the length of an array is spelled with digits. -/
theorem isNumeral_of_dimension? (ht : t.Stops)
    (hnumbers : ∀ l ∈ lexemes, l.kind = .number → Text.IsNumeral l.text)
    (h : ofLexemes? t lexemes endPosition = some u) (hclean : u.hasErrors = false)
    {d x : SymbolId} (hx : (u.symbol d).dimension? = some x) :
    Text.IsNumeral (u.symbol x).value := by
  obtain ⟨⟨names, s'⟩, hs', rfl⟩ := Option.map_eq_some_iff.1 h
  have hpoised := poised_ofLexemes t lexemes endPosition
  have hstart : (State.ofLexemes lexemes endPosition).Numeric := ⟨nofun, hnumbers⟩
  have hfirst : ((State.ofLexemes lexemes endPosition).advance t).Measured := by
    intro d x hx
    cases GivesNoLength.advance t (State.ofLexemes lexemes endPosition) d x hx
  have hmeasured := (course_program ht hpoised hs').measured ht hpoised (hstart.advance t) hfirst
  exact (hmeasured d x hx).resolve_right (by rw [show s'.hasErrors = false from hclean]; nofun)

/-- In a source without errors, the length of an array is spelled with digits. -/
theorem isNumeral_of_dimension?_ofSource {source : String}
    (hclean : (ofSource source).hasErrors = false) {d x : SymbolId}
    (hx : ((ofSource source).symbol d).dimension? = some x) :
    Text.IsNumeral ((ofSource source).symbol x).value := by
  exact isNumeral_of_dimension? stops_cStructs
    (fun l hl hnumber => (Lexicon.isSpelled_of_mem_lexemes hl).of_number hnumber)
    (ofLexemes?_ofSource source) hclean hx

end TranslationUnit

end CStruct
