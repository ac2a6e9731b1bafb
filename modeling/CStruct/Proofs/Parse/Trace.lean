import CStruct.Proofs.Expression.Grouping
import CStruct.Proofs.Parse.Naming
import CStruct.Proofs.Parse.Readers

/-!
# What reading is made of, with any table

Whatever the table, reading is made of `Move`s: the next symbol is read, something is reported, a
symbol is edited or declared, a name is bound. The body of a struct is a block of moves in a scope
of its own. A `Trace` says no more than that, so that it is there for every reader without any
condition; what each move keeps, and each block, is kept by every reader.

The first thing kept is that nothing moves on from the end. Where statements go on although the end
has been read, they never stop: `not_end_of_statements` says that of a list of statements that has
been read.
-/

namespace CStruct.Parse

open SymbolTable State

/-- A change to a symbol that leaves its spelling and its place, its prototype's spelling, its role
and its scope, and that makes no symbol the end of the input and none declared. -/
structure Edits (f : Symbol → Symbol) : Prop where
  id : ∀ x, (f x).id = x.id
  value : ∀ x, (f x).value = x.value
  span : ∀ x, (f x).span = x.span
  role : ∀ x, (f x).role = x.role
  scope? : ∀ x, (f x).scope? = x.scope?
  kind : ∀ x, (f x).kind = .endOfInput → x.kind = .endOfInput
  declaration? : ∀ x, x.declaration? = none → (f x).declaration? = none

theorem edits_declaration (f : Declaration → Declaration) :
    Edits fun x => { x with declaration? := x.declaration?.map f } :=
  ⟨fun _ => rfl, fun _ => rfl, fun _ => rfl, fun _ => rfl, fun _ => rfl, fun _ h => h,
    fun _ h => Option.map_eq_none_iff.2 h⟩

theorem edits_kind {kind : SymbolKind} (h : kind ≠ .endOfInput)
    (first? second? : Symbol → Option SymbolId) :
    Edits fun x => { x with first? := first? x, second? := second? x, kind } :=
  ⟨fun _ => rfl, fun _ => rfl, fun _ => rfl, fun _ => rfl, fun _ => rfl, fun _ hend => absurd hend h,
    fun _ h => h⟩

theorem edits_reserved : Edits ({ · with reserved := true }) :=
  ⟨fun _ => rfl, fun _ => rfl, fun _ => rfl, fun _ => rfl, fun _ => rfl, fun _ hend => hend,
    fun _ h => h⟩

/-- A move that reading makes with a table. -/
inductive Move (t : SymbolTable) : State → State → Prop
  | advance (s : State) : Move t s (s.advance t)
  | report (s : State) (ds : Diagnostics) : Move t s { s with diagnostics := ds }
  | edit (s : State) (id : SymbolId) {f : Symbol → Symbol} (hf : Edits f) :
    Move t s (s.modifySymbol id f)
  | declare (s : State) (name type : SymbolId) : Move t s (s.declare name type)
  | bind (s : State) (name : String) (id : SymbolId) : Move t s (s.bind name id)

/-- Moves one after the other, with blocks among them. -/
inductive Trace (t : SymbolTable) : State → State → Prop
  | refl (s : State) : Trace t s s
  | step {s s' s'' : State} (h : Trace t s s') (hmove : Move t s' s'') : Trace t s s''
  | block {s s₁ s₂ : State} (h : Trace t s s₁) (hbody : Trace t s₁.openScope s₂) :
    Trace t s s₂.closeScope

variable {t : SymbolTable} {s s' s'' : State} {keyword name : SymbolId} {fuel : Nat}

namespace Trace

theorem of_move (h : Move t s s') : Trace t s s' := .step (.refl s) h

theorem trans (h : Trace t s s') (h' : Trace t s' s'') : Trace t s s'' := by
  induction h' with
  | refl => exact h
  | step _ hmove ih => exact .step (ih h) hmove
  | block _ hbody ih _ => exact .block (ih h) hbody

/-! ## Operations -/

theorem advance (s : State) : Trace t s (s.advance t) := of_move (.advance s)

theorem report (s : State) (id : SymbolId) (problem : Problem) : Trace t s (s.report id problem) :=
  of_move (.report s _)

theorem reportExpected (s : State) (id : String) : Trace t s (s.reportExpected id) :=
  of_move (.report s _)

theorem expect (id : String) (s : State) : Trace t s (s.expect t id) := by
  unfold State.expect
  split
  · exact advance s
  · exact (reportExpected s id).trans (advance _)

theorem define (s : State) (name type : SymbolId) : Trace t s (s.define name type) := by
  obtain ⟨ds, heq⟩ := define_eq s name type
  rw [heq]
  exact (Trace.of_move (.report s ds)).step (.declare _ name type) |>.step (.bind _ _ name)

theorem defineAlias (s : State) (name type struct : SymbolId) :
    Trace t s (s.defineAlias name type struct) := by
  obtain ⟨ds, heq⟩ := defineAlias_eq s name type struct
  rw [heq]
  have hdeclare : Trace t s ({ s with diagnostics := ds }.declare name type) :=
    (Trace.of_move (.report s ds)).step (.declare _ name type)
  have htied := (hdeclare.step (.edit _ name (edits_declaration
    ({ · with isAlias := true })))).step (.edit _ struct (edits_declaration
    ({ · with alias? := some name })))
  dsimp only
  split
  · exact htied
  · exact htied.step (.bind _ _ name)

theorem reserve (s : State) (keyword : SymbolId) : Trace t s (s.reserve keyword) := by
  rcases reserve_cases s keyword with heq | ⟨ds, -, heq⟩
  · rw [heq]
    exact .refl s
  · rw [heq]
    exact ((Trace.of_move (.report s ds)).step (.edit _ keyword edits_reserved)).step
      (.bind _ _ keyword)

theorem setBody (s : State) (tag : SymbolId) (body : ScopeId) : Trace t s (s.setBody tag body) :=
  of_move (.edit s tag (edits_declaration _))

/-! ## Expressions -/

def OfReader (t : SymbolTable) (read : ExpressionReader) : Prop :=
  ∀ bound s top s', read bound s = some (top, s') → Trace t s s'

theorem of_nud {read : ExpressionReader} (hread : OfReader t read) {token : SymbolId}
    (h : nullDenotation read token s = some s') : Trace t s s' := by
  unfold nullDenotation at h
  split at h
  · cases h
    exact .refl s
  · obtain ⟨⟨operand, s₁⟩, h₁, rfl⟩ := Option.map_eq_some_iff.1 h
    exact ((reserve s token).trans (hread _ _ _ _ h₁)).step
      (.edit _ token (edits_kind (by decide) (fun _ => some operand) (·.second?)))
  · cases h
    exact report s token _

theorem of_led {read : ExpressionReader} (hread : OfReader t read)
    {token left : SymbolId} (h : leftDenotation read token left s = some s') : Trace t s s' := by
  have hright {bound : Nat} (h : rightOperand read token left bound s = some s') :
      Trace t s s' := by
    obtain ⟨⟨right, s₁⟩, h₁, rfl⟩ := Option.map_eq_some_iff.1 h
    exact (hread _ _ _ _ h₁).step
      (.edit _ token (edits_kind (by decide) (fun _ => some left) (fun _ => some right)))
  unfold leftDenotation at h
  dsimp only at h
  split at h
  · exact hright h
  · exact hright h
  · cases h
    exact report s token _

theorem of_expression_operators (t : SymbolTable) (fuel : Nat) :
    OfReader t (expression t fuel) ∧
      ∀ bound left s top s', operators t fuel bound left s = some (top, s') → Trace t s s' := by
  induction fuel using Nat.strongRecOn with
  | ind fuel ih =>
    refine ⟨fun bound s top s' h => ?_, fun bound left s top s' h => ?_⟩
    · obtain ⟨n, s₁, rfl, hnull, hoperators⟩ := expression_cases h
      obtain ⟨ihexpression, ihoperators⟩ := ih n (Nat.lt_succ_self n)
      exact ((advance s).trans (of_nud ihexpression hnull)).trans
        (ihoperators _ _ _ _ _ hoperators)
    · rcases operators_cases h with ⟨-, heq⟩ | ⟨-, n, s₁, rfl, hleft, hoperators⟩
      · cases heq
        exact .refl s
      · obtain ⟨ihexpression, ihoperators⟩ := ih n (Nat.lt_succ_self n)
        exact ((advance s).trans (of_led ihexpression hleft)).trans
          (ihoperators _ _ _ _ _ hoperators)

theorem of_expression {bound : Nat} {top : SymbolId}
    (h : expression t fuel bound s = some (top, s')) : Trace t s s' :=
  (of_expression_operators t fuel).1 _ _ _ _ h

/-! ## Members -/

theorem of_dimension (h : dimension t name s = some s') : Trace t s s' := by
  obtain ⟨⟨length, s₁⟩, h₁, rfl⟩ := Option.map_eq_some_iff.1 h
  dsimp only
  have hliteral : Trace t s₁ (if (s₁.symbol length).kind = .literal then s₁
      else s₁.report length .dimensionNotLiteral) := by
    split
    · exact .refl s₁
    · exact report s₁ length _
  exact (((of_expression h₁).trans hliteral).trans (expect "]" _)).step
    (.edit _ name (edits_declaration _))

theorem of_declarator (h : declarator t keyword s = some s') : Trace t s s' := by
  unfold declarator at h
  split at h
  · have hname := (define s s.token keyword).trans (advance (t := t) _)
    dsimp only at h
    split at h
    · exact (hname.trans (advance _)).trans (of_dimension h)
    · cases h
      exact hname
  · cases h
    have hreport := report (t := t) s s.token .memberNameMissing
    split
    · exact hreport
    · exact hreport.trans (advance _)

theorem of_declarators (h : declarators t keyword fuel s = some s') : Trace t s s' := by
  induction fuel using Nat.strongRecOn generalizing s with
  | ind fuel ih =>
    obtain ⟨s₁, h₁, hcases⟩ := declarators_cases h
    rcases hcases with ⟨-, rfl⟩ | ⟨-, rest, rfl, h₂⟩
    · exact of_declarator h₁
    · exact ((of_declarator h₁).trans (advance s₁)).trans (ih rest (Nat.lt_succ_self rest) h₂)

theorem of_members (h : members t keyword s = some s') : Trace t s s' := by
  unfold members at h
  split at h
  · cases h
    exact report s keyword _
  · obtain ⟨s₁, h₁, rfl⟩ := Option.map_eq_some_iff.1 h
    apply (of_declarators h₁).trans
    split
    · exact reportExpected s₁ _
    · exact expect _ s₁

/-! ## Structs -/

theorem of_forwardDeclaration (tag? : Option SymbolId) :
    Trace t s (forwardDeclaration keyword tag? s).2 := by
  unfold forwardDeclaration
  split
  · exact report s keyword _
  · split
    · exact .refl s
    · exact define s _ keyword

theorem of_typedefName (t : SymbolTable) (s : State) (keyword : SymbolId)
    (tag? : Option SymbolId) (body : ScopeId) :
    Trace t s (typedefName t keyword tag? body s).2 := by
  unfold typedefName
  split
  · dsimp only
    split
    · exact (defineAlias s _ keyword _).trans (advance _)
    · exact ((define s s.token keyword).trans (setBody _ s.token body)).trans (advance _)
  · exact .refl s

theorem of_define? (s : State) (keyword : SymbolId) (tag? : Option SymbolId) :
    Trace t s (tag?.elim s fun tag => s.define tag keyword) := by
  cases tag? with
  | none => exact .refl s
  | some tag => exact define s tag keyword

theorem of_setBody? (s : State) (tag? : Option SymbolId) (body : ScopeId) :
    Trace t s (tag?.elim s fun tag => s.setBody tag body) := by
  cases tag? with
  | none => exact .refl s
  | some tag => exact setBody s tag body

/-- What stands behind the body of a struct, once its scope is closed. -/
theorem of_structEnd (t : SymbolTable) (s : State) (keyword : SymbolId) (tag? : Option SymbolId)
    (body : ScopeId) : Trace t s.closeScope (structEnd t keyword tag? body s).2 := by
  have hbrace := (expect (t := t) closeBrace s.closeScope).trans (of_setBody? _ tag? body)
  unfold structEnd
  dsimp only
  apply (hbrace.trans (of_typedefName t _ keyword tag? body)).trans
  split
  · exact (report _ keyword _).trans (expect _ _)
  · exact expect _ _

theorem of_structDeclaration {readBody : State → Option State}
    (hbody : ∀ s s', readBody s = some s' → Trace t s s') {name? : Option SymbolId}
    (h : structDeclaration t readBody keyword s = some (name?, s')) : Trace t s s' := by
  unfold structDeclaration at h
  dsimp only at h
  generalize (if s.current.kind = .name then some s.token else none) = tag? at h
  have htag : Trace t s (if tag?.isSome then s.advance t else s) := by
    split
    · exact advance s
    · exact .refl s
  generalize (if tag?.isSome then s.advance t else s) = s₁ at h htag
  apply htag.trans
  split at h
  · have hend : (forwardDeclaration keyword tag? (s₁.advance t)).2 = s' :=
      congrArg Prod.snd (Option.some.inj h)
    rw [← hend]
    exact (advance s₁).trans (of_forwardDeclaration tag?)
  · obtain ⟨s₂, h₂, h₃⟩ := Option.map_eq_some_iff.1 h
    have hopen : Trace t s₁ ((tag?.elim s₁ fun tag => s₁.define tag keyword).expect t openBrace) :=
      (of_define? s₁ keyword tag?).trans (expect openBrace _)
    have hend := congrArg Prod.snd h₃
    rw [← show _ = s' from hend]
    exact (hopen.block (hbody _ _ h₂)).trans (of_structEnd t s₂ keyword tag? _)

/-! ## Statements -/

theorem of_enterStatement (t : SymbolTable) (s : State) : Trace t s (s.enterStatement t) :=
  ((advance s).trans (reserve _ _)).step
    (.edit _ s.token (edits_kind (by decide) (·.first?) (·.second?)))

theorem of_expressionStatement (h : expressionStatement t s = some s') : Trace t s s' := by
  obtain ⟨⟨top, s₁⟩, h₁, rfl⟩ := Option.map_eq_some_iff.1 h
  apply (of_expression h₁).trans
  dsimp only
  split
  · exact .refl s₁
  · exact report s₁ top _

theorem of_statement {readBody : State → Option State}
    (hbody : ∀ s s', readBody s = some s' → Trace t s s') {name? : Option SymbolId}
    (h : statement t readBody s = some (name?, s')) : Trace t s s' := by
  unfold statement at h
  split at h
  · exact (of_enterStatement t s).trans (of_structDeclaration hbody h)
  · obtain ⟨s₁, h₁, h₂⟩ := Option.map_eq_some_iff.1 h
    cases h₂
    exact (of_enterStatement t s).trans (of_members h₁)
  · obtain ⟨s₁, h₁, h₂⟩ := Option.map_eq_some_iff.1 h
    cases h₂
    exact of_expressionStatement h₁

theorem of_statements {names : List SymbolId} (h : statements t fuel s = some (names, s')) :
    Trace t s s' := by
  induction fuel using Nat.strongRecOn generalizing s s' names with
  | ind fuel ih =>
    rcases statements_cases h with ⟨-, -, rfl⟩ | ⟨-, rest, name?, s₁, others, rfl, -, h₁, h₂⟩
    · exact .refl _
    · have hlt := Nat.lt_succ_self rest
      have hbody (s s' : State) (h : bodyReader t rest s = some s') : Trace t s s' := by
        obtain ⟨names, h⟩ := bodyReader_cases h
        exact ih rest hlt h
      exact (of_statement hbody h₁).trans (ih rest hlt h₂)

theorem of_bodyReader (h : bodyReader t fuel s = some s') : Trace t s s' := by
  obtain ⟨names, h⟩ := bodyReader_cases h
  exact of_statements h

theorem of_program {names : List SymbolId} (h : program t fuel s = some (names, s')) :
    Trace t s s' := by
  induction fuel using Nat.strongRecOn generalizing s s' names with
  | ind fuel ih =>
    obtain ⟨first, s₁, h₁, hcases⟩ := program_cases h
    rcases hcases with ⟨-, -, rfl⟩ | ⟨-, rest, others, rfl, -, h₂⟩
    · exact of_statements h₁
    · exact (((of_statements h₁).trans (report s₁ _ _)).trans (advance _)).trans
        (ih rest (Nat.lt_succ_self rest) h₂)

end Trace

/-! ## The end -/

namespace State

/-- The end has been read, and this is so of its symbol. -/
structure Ended (s : State) (P : Symbol → Prop) : Prop where
  endSymbol? : s.endSymbol? = some s.token
  pending : s.pending = []
  token_lt : s.token < s.symbols.size
  current : P s.current

namespace Ended

variable {P : Symbol → Prop}

theorem of_eq (h : s.Ended P) (endSymbol : s'.endSymbol? = s.endSymbol?)
    (token : s'.token = s.token) (pending : s'.pending = s.pending)
    (symbols : s'.symbols = s.symbols) : s'.Ended P := by
  refine ⟨by rw [endSymbol, token]; exact h.endSymbol?, pending.trans h.pending, ?_, ?_⟩
  · rw [token, symbols]
    exact h.token_lt
  · rw [State.current, State.symbol, token, symbols]
    exact h.current

theorem modifySymbol (h : s.Ended P) (id : SymbolId) {f : Symbol → Symbol}
    (hf : ∀ x, P x → P (f x)) : (s.modifySymbol id f).Ended P := by
  refine ⟨h.endSymbol?, h.pending, ?_, ?_⟩
  · show s.token < (s.symbols.modify id f).size
    rw [Array.size_modify]
    exact h.token_lt
  · show P ((s.modifySymbol id f).symbol s.token)
    by_cases hid : s.token = id
    · rw [← hid, symbol_modifySymbol_self h.token_lt]
      exact hf _ h.current
    · rw [symbol_modifySymbol_of_ne hid]
      exact h.current

theorem advance (h : s.Ended P) (t : SymbolTable) : (s.advance t).Ended P := by
  have hnext : s.pending.dropWhile Lexeme.isComment = [] := by
    rw [h.pending]
    rfl
  rw [advance_eq_stay h.endSymbol? hnext]
  exact ⟨h.endSymbol?, rfl, h.token_lt, h.current⟩

end Ended

/-- The end has been read, and it goes by this name. -/
abbrev Halted (s : State) (id : String) : Prop := s.Ended (·.id = id)

namespace Halted

variable {id : String}

theorem move (h : s.Halted id) (hmove : Move t s s') : s'.Halted id := by
  cases hmove with
  | advance => exact h.advance t
  | report | bind => exact h.of_eq rfl rfl rfl rfl
  | edit other hf => exact h.modifySymbol other fun x hx => (hf.id x).trans hx
  | declare name => exact h.modifySymbol name fun _ hx => hx

theorem openScope (h : s.Halted id) : s.openScope.Halted id := h.of_eq rfl rfl rfl rfl

theorem trace (h : s.Halted id) (htrace : Trace t s s') : s'.Halted id := by
  induction htrace with
  | refl => exact h
  | step _ hmove ih => exact (ih h).move hmove
  | block _ _ ih ihbody =>
    have hinside := ihbody (ih h).openScope
    unfold State.closeScope
    split
    · exact hinside
    · exact hinside.of_eq rfl rfl rfl rfl

theorem atClose_eq (h : s.Halted id) (h' : s'.Halted id) : s'.atClose = s.atClose := by
  rw [atClose, atClose, check, check, check, check, h.current, h'.current]

/-- Where the end does not close anything, one statement leads to the next. -/
theorem statements_eq_none (h : s.Halted id) (hopen : s.atClose = false) (t : SymbolTable)
    (fuel : Nat) : statements t fuel s = none := by
  induction fuel using Nat.strongRecOn generalizing s with
  | ind fuel ih =>
    cases hread : statements t fuel s with
    | none => rfl
    | some result =>
      rcases statements_cases hread with
        ⟨hclose, -, -⟩ | ⟨-, rest, name?, s₁, others, rfl, -, hfirst, hrest⟩
      · rw [hopen] at hclose
        cases hclose
      · have h₁ := h.trace (Trace.of_statement (fun _ _ => Trace.of_bodyReader) hfirst)
        rw [ih rest (Nat.lt_succ_self rest) h₁ ((h.atClose_eq h₁).trans hopen)] at hrest
        cases hrest

end Halted

/-- Once the end has been read, it goes by this name. -/
def EndsAs (s : State) (id : String) : Prop := s.endSymbol? ≠ none → s.Halted id

namespace EndsAs

theorem not_end {id : String} (h : s.EndsAs id) (hother : s.check id = false) :
    s.endSymbol? = none := by
  by_contra he
  rw [check, (h he).current, beq_self_eq_true] at hother
  cases hother

theorem move (h : s.EndsAs (t.prototype endId).id) (hmove : Move t s s') :
    s'.EndsAs (t.prototype endId).id := by
  intro he
  by_cases hs : s.endSymbol? = none
  · cases hmove with
    | advance =>
      cases hnext : s.pending.dropWhile Lexeme.isComment with
      | nil =>
        rw [advance_eq_end hs hnext]
        refine ⟨rfl, rfl, ?_, congrArg Prototype.id ?_⟩
        · show s.symbols.size < (s.symbols.push (s.endSymbolOf t)).size
          rw [Array.size_push]
          exact Nat.lt_succ_self _
        · exact congrArg Symbol.toPrototype (symbol_push (s.afterComments []) (s.endSymbolOf t))
      | cons l ls =>
        -- a lexeme is not the end
        refine absurd ?_ he
        cases hp : s.prototype? t l with
        | some p =>
          rw [advance_eq_push hnext hp]
          exact hs
        | none =>
          rw [advance_eq_unknown hnext hp]
          exact hs
    | report | edit | declare | bind => exact absurd hs he
  · exact (h hs).move hmove

/-- The end goes by the name that the table gives it. -/
theorem trace (h : s.EndsAs (t.prototype endId).id) (htrace : Trace t s s') :
    s'.EndsAs (t.prototype endId).id := by
  induction htrace with
  | refl => exact h
  | step _ hmove ih => exact (ih h).move hmove
  | @block s s₁ s₂ _ _ ih ihbody =>
    have hinside : s₂.EndsAs (t.prototype endId).id := ihbody fun he => ((ih h) he).openScope
    intro he
    unfold State.closeScope at he ⊢
    split at he
    · exact hinside he
    · exact (hinside he).of_eq rfl rfl rfl rfl

end EndsAs

end State

/-- What has been read to its end has not started at the end, unless that closes it. -/
theorem not_end_of_statements (hend : ∀ e, s.endSymbol? = some e → s.pending = [] ∧ s.token = e)
    (hlt : s.token < s.symbols.size) (hopen : s.atClose = false) {names : List SymbolId}
    (h : statements t fuel s = some (names, s')) : s.endSymbol? = none := by
  by_contra he
  obtain ⟨e, he⟩ := Option.ne_none_iff_exists'.1 he
  obtain ⟨hpending, rfl⟩ := hend e he
  have hhalted : s.Halted s.current.id := ⟨he, hpending, hlt, rfl⟩
  rw [hhalted.statements_eq_none hopen t fuel] at h
  cases h

end CStruct.Parse
