import CStruct.Proofs.Parse.Runs
import CStruct.Proofs.Parse.Trace

/-!
# The course of reading

A source is read in pieces: an expression as a whole, the keyword of a statement, a name that is
declared. `Piece` says which pieces there are and what is known where each of them is read, and
`Course` that one piece follows another, the body of a struct being a course of its own. A piece is
made of steps, so a course is a run. The main statement is `course_program`.
-/

namespace CStruct.Parse

open SymbolTable State

/-! ## Pieces -/

/-- The symbol has been read before the token, and it is a name that has not been declared. -/
structure State.PassedName (s : State) (id : SymbolId) : Prop extends s.Passed id where
  kind : (s.symbol id).kind = .name

/-- A piece of a source, read in one go. A length that is no literal has been reported. -/
inductive Piece (t : SymbolTable) : State → State → Prop
  | advance (s : State) : Piece t s (s.advance t)
  | report (s : State) (id : SymbolId) (problem : Problem) : Piece t s (s.report id problem)
  | expression {fuel bound : Nat} {s s' : State} {top : SymbolId}
    (h : expression t fuel bound s = some (top, s')) : Piece t s s'
  | keyword {s : State} (he : s.endSymbol? = none) (hstd : s.current.role.std ≠ none) :
    Piece t s (s.enterStatement t)
  | member {s : State} {keyword : SymbolId} (hname : s.current.kind = .name)
    (hkeyword : (s.symbol keyword).role.std = some .member) :
    Piece t s ((s.define s.token keyword).advance t)
  | dimension {s : State} {name length : SymbolId} (hlt : name < s.token)
    (hliteral : (s.symbol length).kind = .literal ∨ s.hasErrors = true) :
    Piece t s (s.modifyDeclaration name ({ · with dimension? := some length }))
  | forward {s : State} {tag : SymbolId} (keyword : SymbolId) (htag : s.PassedName tag)
    (hnew : s.declaresStruct tag = false) : Piece t s (s.define tag keyword)
  | typedef {s : State} (keyword : SymbolId) (body : ScopeId) (hname : s.current.kind = .name) :
    Piece t s (((s.define s.token keyword).setBody s.token body).advance t)
  | aliased {s : State} {tag : SymbolId} (keyword : SymbolId) (hname : s.current.kind = .name)
    (hlt : tag < s.token) : Piece t s ((s.defineAlias s.token keyword tag).advance t)

/-- Pieces one after the other. The body of a struct is read in a scope of its own. -/
inductive Course (t : SymbolTable) : State → State → Prop
  | refl (s : State) : Course t s s
  | piece {s s' s'' : State} (h : Course t s s') (hpiece : Piece t s' s'') : Course t s s''
  | block {s s₁ s₂ : State} (keyword : SymbolId) {tag? : Option SymbolId} (h : Course t s s₁)
    (htag : ∀ tag ∈ tag?, s₁.PassedName tag)
    (hbody : Course t (s₁.enterBody t keyword tag?) s₂) :
    Course t s (s₂.leaveBody t tag? (s₁.enterBody t keyword tag?).scope)

variable {t : SymbolTable} {s s' s'' : State} {keyword name : SymbolId} {fuel : Nat}

namespace Course

theorem of_piece (h : Piece t s s') : Course t s s' := .piece (.refl s) h

theorem trans (h : Course t s s') (h' : Course t s' s'') : Course t s s'' := by
  induction h' with
  | refl => exact h
  | piece _ hpiece ih => exact .piece (ih h) hpiece
  | block keyword _ htag hbody ih _ => exact .block keyword (ih h) htag hbody

theorem advance (s : State) : Course t s (s.advance t) := of_piece (.advance s)

theorem report (s : State) (id : SymbolId) (problem : Problem) :
    Course t s (s.report id problem) :=
  of_piece (.report s id problem)

theorem expect (id : String) (s : State) : Course t s (s.expect t id) := by
  unfold State.expect
  split
  · exact advance s
  · exact (report s _ _).trans (advance _)

end Course

/-! ## Pieces are made of steps -/

theorem run_enterStatement (hs : s.Poised t) (he : s.endSymbol? = none) :
    Run t s (s.enterStatement t) ∧ s.token < (s.enterStatement t).token ∧
      ((s.enterStatement t).symbol s.token).role = s.current.role := by
  have hpassed := hs.passed (t := t) he
  have hs₁ := hs.advance.poised
  have hreserve : ExpressionRun t s ((s.advance t).reserve s.token) :=
    .tail (.single (.advance s)) (.reserve hpassed)
  have hpassed₂ := hpassed.reserve hs₁ hpassed
  have hs₂ := (hs.run hreserve.run).poised
  refine ⟨hreserve.run.step (.keyword hpassed₂), hpassed₂.lt, ?_⟩
  have hlt := Nat.lt_trans hpassed₂.lt hs₂.sound.token_lt
  rw [State.enterStatement, symbol_modifySymbol_self hlt]
  exact (hreserve.retouched hs.sound.token_lt).role

theorem Piece.run (h : Piece t s s') (ht : t.Stops) (hs : s.Poised t) : Run t s s' := by
  cases h with
  | advance => exact .advance s
  | report _ id problem => exact .report _ id problem
  | expression h => exact (steps_expression ht hs h).run
  | keyword he => exact (run_enterStatement hs he).1
  | member hname hkeyword => exact .of_step (.member hname hkeyword)
  | @dimension _ _ length hlt => exact .of_step (.dimension length hlt)
  | forward keyword htag hnew => exact .of_step (.forward keyword htag.toPassed hnew)
  | typedef keyword body hname => exact .of_step (.typedef keyword body hname)
  | aliased keyword hname hlt => exact .of_step (.aliased keyword hname hlt)

theorem Course.run (h : Course t s s') (ht : t.Stops) (hs : s.Poised t) : Run t s s' := by
  induction h with
  | refl => exact .refl _
  | piece _ hpiece ih => exact (ih hs).trans (hpiece.run ht (hs.run (ih hs)).poised)
  | block keyword _ htag _ ih ihbody =>
    have hpassed := fun tag hmem => (htag tag hmem).toPassed
    have henter := (hs.run (ih hs)).poised.enterBody keyword hpassed
    exact .block keyword (ih hs) hpassed (ihbody henter.poised)

theorem Course.proceeds (h : Course t s s') (ht : t.Stops) (hs : s.Poised t) : s.Proceeds t s' :=
  hs.run (h.run ht hs)

theorem State.Poised.passedName (hs : s.Poised t) (hname : s.current.kind = .name) :
    (s.advance t).PassedName s.token := by
  refine ⟨hs.passed (hs.plain_name hname).1, ?_⟩
  rw [symbol_advance hs.sound.token_lt]
  exact hname

theorem State.PassedName.advance {id : SymbolId} (h : s.PassedName id)
    (hs : s.Poised t) : (s.advance t).PassedName id := by
  refine ⟨h.toPassed.advance hs, ?_⟩
  rw [symbol_advance (Nat.lt_trans h.lt hs.sound.token_lt)]
  exact h.kind

/-! ## Members -/

-- While members are read, the keyword before them stays the keyword of members.
def KeepsRole (keyword : SymbolId) (s s' : State) : Prop :=
  (s'.symbol keyword).role = (s.symbol keyword).role

theorem ExpressionRun.keepsRole (h : ExpressionRun t s s') (hs : s.Poised t)
    (hlt : keyword < s.token) : KeepsRole keyword s s' :=
  (h.retouched (Nat.lt_trans hlt hs.sound.token_lt)).role

theorem steps_expect (t : SymbolTable) (id : String) (s : State) :
    ExpressionRun t s (s.expect t id) := by
  unfold State.expect
  split
  · exact .single (.advance s)
  · exact .tail (.single (.report s _ _)) (.advance _)

theorem keepsRole_modifyDeclaration (hlt : keyword < s.symbols.size) (name : SymbolId)
    (f : Declaration → Declaration) : KeepsRole keyword s (s.modifyDeclaration name f) := by
  unfold KeepsRole
  by_cases heq : keyword = name
  · subst heq
    rw [State.modifyDeclaration, symbol_modifySymbol_self hlt]
  · rw [State.modifyDeclaration, symbol_modifySymbol_of_ne heq]

/-- A symbol that is a literal has been read. -/
theorem lt_size_of_literal {id : SymbolId} (h : (s.symbol id).kind = .literal) :
    id < s.symbols.size := by
  by_contra hlt
  rw [symbol_of_size_le (Nat.le_of_not_lt hlt)] at h
  cases h

theorem symbol_expect {id : SymbolId} (hid : id < s.symbols.size) (name : String) :
    (s.expect t name).symbol id = s.symbol id := by
  unfold State.expect
  split
  · exact symbol_advance hid
  · exact symbol_advance (s := s.reportExpected name) hid

/-- A length is a literal, or it has been reported. -/
theorem literal_or_hasErrors (t : SymbolTable) (s : State) (length : SymbolId) :
    let s' := (if (s.symbol length).kind = .literal then s
      else s.report length .dimensionNotLiteral).expect t "]"
    (s'.symbol length).kind = .literal ∨ s'.hasErrors = true := by
  dsimp only
  split
  · rename_i hkind
    refine .inl ?_
    rw [symbol_expect (lt_size_of_literal hkind), hkind]
  · refine .inr ?_
    by_contra hclean
    rw [Bool.not_eq_true] at hclean
    have hreport : (s.report length .dimensionNotLiteral).hasErrors = true :=
      hasErrors_report s length rfl
    rw [(grows_expect t "]" _).hasErrors_eq_false hclean] at hreport
    cases hreport

theorem course_dimension (ht : t.Stops) (hs : s.Poised t) (hname : name < s.token)
    (hkeyword : keyword < s.token) (h : dimension t name s = some s') :
    Course t s s' ∧ KeepsRole keyword s s' := by
  obtain ⟨⟨length, s₁⟩, h₁, rfl⟩ := Option.map_eq_some_iff.1 h
  dsimp only
  have hliteral : ExpressionRun t s₁ (if (s₁.symbol length).kind = .literal then s₁
      else s₁.report length .dimensionNotLiteral) := by
    split
    · exact .refl
    · exact .single (.report _ _ _)
  have hrun := ((steps_expression ht hs h₁).trans hliteral).trans (steps_expect t "]" _)
  have hproceeds := hs.run hrun.run
  have hlt := Nat.lt_of_lt_of_le hname hproceeds.token_le
  have hlt' := Nat.lt_of_lt_of_le hkeyword hproceeds.token_le
  refine ⟨?_, ?_⟩
  · have hchecked : Course t s₁ (if (s₁.symbol length).kind = .literal then s₁
        else s₁.report length .dimensionNotLiteral) := by
      split
      · exact .refl s₁
      · exact .report s₁ length _
    exact (((Course.of_piece (.expression h₁)).trans hchecked).trans (.expect "]" _)).piece
      (.dimension hlt (literal_or_hasErrors t s₁ length))
  · exact (keepsRole_modifyDeclaration (Nat.lt_trans hlt' hproceeds.leads.sound.token_lt) name
      _).trans (hrun.keepsRole hs hkeyword)

theorem course_declarator (ht : t.Stops) (hs : s.Poised t) (hkeyword : keyword < s.token)
    (hmember : (s.symbol keyword).role.std = some .member)
    (h : declarator t keyword s = some s') : Course t s s' ∧ KeepsRole keyword s s' := by
  unfold declarator at h
  split at h
  · rename_i hname
    have hpiece : Piece t s ((s.define s.token keyword).advance t) := .member hname hmember
    have hproceeds := hs.step (.member hname hmember)
    -- the keyword stands before the name, so that it keeps its role
    have hlt := Nat.lt_of_lt_of_le hkeyword hproceeds.token_le
    have hrole : KeepsRole keyword s ((s.define s.token keyword).advance t) := by
      obtain ⟨ds, heq⟩ := define_eq s s.token keyword
      have hsize : keyword < (s.define s.token keyword).symbols.size := by
        rw [size_define]
        exact Nat.lt_trans hkeyword hs.sound.token_lt
      rw [KeepsRole, symbol_advance hsize, heq]
      exact congrArg (·.role) (symbol_modifySymbol_of_ne (s := s) (Nat.ne_of_lt hkeyword))
    have htoken : s.token < ((s.define s.token keyword).advance t).token := by
      obtain ⟨he, -⟩ := hs.plain_name hname
      rw [token_advance ((endSymbol?_define s s.token keyword).trans he), size_define]
      exact hs.sound.token_lt
    dsimp only at h
    split at h
    · have hadvance : ExpressionRun t _ (((s.define s.token keyword).advance t).advance t) :=
        .single (.advance _)
      have hnext := hproceeds.poised.run hadvance.run
      obtain ⟨hcourse, hrole'⟩ := course_dimension ht hnext.poised
        (Nat.lt_of_lt_of_le htoken hnext.token_le) (Nat.lt_of_lt_of_le hlt hnext.token_le) h
      refine ⟨((Course.of_piece hpiece).trans (.advance _)).trans hcourse, ?_⟩
      exact (hrole'.trans (hadvance.keepsRole hproceeds.poised hlt)).trans hrole
    · cases h
      exact ⟨.of_piece hpiece, hrole⟩
  · cases h
    split
    · exact ⟨.report s _ _, rfl⟩
    · refine ⟨(Course.report s _ _).trans (.advance _), ?_⟩
      have hlt := Nat.lt_trans hkeyword hs.sound.token_lt
      exact congrArg (·.role) (symbol_advance (s := s.report s.token .memberNameMissing) hlt)

theorem course_declarators (ht : t.Stops) (hs : s.Poised t) (hkeyword : keyword < s.token)
    (hmember : (s.symbol keyword).role.std = some .member)
    (h : declarators t keyword fuel s = some s') : Course t s s' := by
  -- on the fuel, which the recursion behind a comma spends
  induction fuel using Nat.strongRecOn generalizing s with
  | ind fuel ih =>
    obtain ⟨s₁, h₁, hcases⟩ := declarators_cases h
    obtain ⟨hcourse, hrole⟩ := course_declarator ht hs hkeyword hmember h₁
    rcases hcases with ⟨-, rfl⟩ | ⟨-, rest, rfl, h₂⟩
    · exact hcourse
    · -- behind the comma, the keyword is still that of members
      have hs₁ := hcourse.proceeds ht hs
      have hlt := Nat.lt_of_lt_of_le hkeyword hs₁.token_le
      have hadvance : ExpressionRun t s₁ (s₁.advance t) := .single (.advance s₁)
      have hs₂ := hs₁.poised.run hadvance.run
      have hmember₂ : ((s₁.advance t).symbol keyword).role.std = some .member := by
        rw [hadvance.keepsRole hs₁.poised hlt, hrole]
        exact hmember
      exact (hcourse.trans (.advance s₁)).trans (ih rest (Nat.lt_succ_self rest) hs₂.poised
        (Nat.lt_of_lt_of_le hlt hs₂.token_le) hmember₂ h₂)

theorem course_members (ht : t.Stops) (hs : s.Poised t) (hkeyword : keyword < s.token)
    (hmember : (s.symbol keyword).role.std = some .member)
    (h : members t keyword s = some s') : Course t s s' := by
  unfold members at h
  split at h
  · cases h
    exact .report s keyword _
  · obtain ⟨s₁, h₁, rfl⟩ := Option.map_eq_some_iff.1 h
    have hcourse := course_declarators ht hs hkeyword hmember h₁
    split
    · exact hcourse.trans (.report s₁ _ _)
    · exact hcourse.trans (.expect ";" s₁)

/-! ## Structs -/

theorem course_forwardDeclaration {tag? : Option SymbolId} (htag : ∀ tag ∈ tag?, s.PassedName tag) :
    Course t s (forwardDeclaration keyword tag? s).2 := by
  unfold forwardDeclaration
  split
  · exact .report s keyword _
  · rename_i tag
    split
    · exact .refl s
    · rename_i hnew
      exact .of_piece (.forward keyword (htag tag rfl) (Bool.eq_false_iff.2 hnew))

theorem course_typedefName (body : ScopeId) {tag? : Option SymbolId}
    (htag : ∀ tag ∈ tag?, tag < s.token) : Course t s (typedefName t keyword tag? body s).2 := by
  unfold typedefName
  split
  · rename_i hname
    dsimp only
    split
    · rename_i tag
      exact .of_piece (.aliased keyword hname (htag tag rfl))
    · exact .of_piece (.typedef keyword body hname)
  · exact .refl s

/-- What is read of a body is a block of the course, and the name of the struct stands behind it. -/
theorem course_structEnd (ht : t.Stops) (hs : s.Poised t) {s₁ s₂ : State} {keyword : SymbolId}
    {tag? : Option SymbolId} (hfirst : Course t s s₁) (htag : ∀ tag ∈ tag?, s₁.PassedName tag)
    (hinside : Course t (s₁.enterBody t keyword tag?) s₂) :
    Course t s (structEnd t keyword tag? (s₁.enterBody t keyword tag?).scope s₂).2 := by
  have henter := (hfirst.proceeds ht hs).poised.enterBody keyword
    fun tag hmem => (htag tag hmem).toPassed
  have hblock : Course t s (s₂.leaveBody t tag? (s₁.enterBody t keyword tag?).scope) :=
    .block keyword hfirst htag hinside
  have hlt : ∀ tag ∈ tag?,
      tag < (s₂.leaveBody t tag? (s₁.enterBody t keyword tag?).scope).token := by
    intro tag hmem
    have hs₂ := henter.trans (hinside.proceeds ht henter.poised)
    have hlt₂ := Nat.lt_of_lt_of_le (htag tag hmem).lt hs₂.token_le
    have hs₃ := hs₂.poised.leaveBody (s₁.enterBody t keyword tag?).scope
      fun tag hmem => Nat.lt_of_lt_of_le (htag tag hmem).lt hs₂.token_le
    exact Nat.lt_of_lt_of_le hlt₂ hs₃.token_le
  have hname : Course t s (typedefName t keyword tag? (s₁.enterBody t keyword tag?).scope
      (s₂.leaveBody t tag? (s₁.enterBody t keyword tag?).scope)).2 :=
    hblock.trans (course_typedefName _ hlt)
  unfold structEnd
  dsimp only
  apply hname.trans
  split
  · exact (Course.report _ keyword _).trans (.expect ";" _)
  · exact .expect ";" _

theorem course_structDeclaration (ht : t.Stops) (hs : s.Poised t) {readBody : State → Option State}
    (hbody : ∀ s s', s.Poised t → readBody s = some s' → Course t s s') {name? : Option SymbolId}
    (h : structDeclaration t readBody keyword s = some (name?, s')) : Course t s s' := by
  unfold structDeclaration at h
  dsimp only at h
  generalize htag? : (if s.current.kind = .name then some s.token else none) = tag? at h
  -- the tag, if there is one, has been passed where the body or the semicolon is looked for
  have hfirst : Course t s (if tag?.isSome then s.advance t else s) := by
    split
    · exact .advance s
    · exact .refl s
  have htag : ∀ tag ∈ tag?, (if tag?.isSome then s.advance t else s).PassedName tag := by
    intro tag hmem
    rw [Option.mem_def] at hmem
    rw [if_pos (by rw [hmem]; rfl)]
    rw [hmem] at htag?
    split at htag?
    · rename_i hname
      cases htag?
      exact hs.passedName hname
    · cases htag?
  generalize (if tag?.isSome then s.advance t else s) = s₁ at h hfirst htag
  have hs₁ := (hfirst.proceeds ht hs).poised
  split at h
  · have hend : (forwardDeclaration keyword tag? (s₁.advance t)).2 = s' :=
      congrArg Prod.snd (Option.some.inj h)
    rw [← hend]
    exact (hfirst.trans (.advance s₁)).trans
      (course_forwardDeclaration fun tag hmem => (htag tag hmem).advance hs₁)
  · obtain ⟨s₂, h₂, h₃⟩ := Option.map_eq_some_iff.1 h
    have henter := hs₁.enterBody keyword fun tag hmem => (htag tag hmem).toPassed
    have hend : (structEnd t keyword tag? (s₁.enterBody t keyword tag?).scope s₂).2 = s' :=
      congrArg Prod.snd h₃
    rw [← hend]
    exact course_structEnd ht hs hfirst htag (hbody _ s₂ henter.poised h₂)

/-! ## Statements -/

theorem course_expressionStatement (h : expressionStatement t s = some s') : Course t s s' := by
  obtain ⟨⟨top, s₁⟩, h₁, rfl⟩ := Option.map_eq_some_iff.1 h
  have hcourse : Course t s s₁ := .of_piece (.expression h₁)
  dsimp only
  split
  · exact hcourse
  · exact hcourse.trans (.report s₁ top _)

theorem course_statement (ht : t.Stops) (hs : s.Poised t) (he : s.endSymbol? = none)
    {readBody : State → Option State}
    (hbody : ∀ s s', s.Poised t → readBody s = some s' → Course t s s') {name? : Option SymbolId}
    (h : statement t readBody s = some (name?, s')) : Course t s s' := by
  obtain ⟨hrun, hlt, hrole⟩ := run_enterStatement hs he
  have henter (hstd : s.current.role.std ≠ none) : Course t s (s.enterStatement t) :=
    .of_piece (.keyword he hstd)
  have hs₁ := (hs.run hrun).poised
  unfold statement at h
  split at h
  · rename_i hstd
    exact (henter (by rw [hstd]; nofun)).trans (course_structDeclaration ht hs₁ hbody h)
  · rename_i hstd
    obtain ⟨s₁, h₁, h₂⟩ := Option.map_eq_some_iff.1 h
    cases h₂
    refine (henter (by rw [hstd]; nofun)).trans (course_members ht hs₁ hlt ?_ h₁)
    rw [hrole]
    exact hstd
  · obtain ⟨s₁, h₁, h₂⟩ := Option.map_eq_some_iff.1 h
    cases h₂
    exact course_expressionStatement h₁

theorem course_statements (ht : t.Stops) (hs : s.Poised t) {names : List SymbolId}
    (h : statements t fuel s = some (names, s')) : Course t s s' := by
  induction fuel using Nat.strongRecOn generalizing s s' names with
  | ind fuel ih =>
    rcases statements_cases h with
      ⟨-, -, rfl⟩ | ⟨hopen, rest, name?, s₁, others, rfl, -, h₁, h₂⟩
    · exact .refl _
    · have hlt := Nat.lt_succ_self rest
      -- the bodies of structs are read with the fuel that is left
      have hbody : ∀ s s', s.Poised t → bodyReader t rest s = some s' → Course t s s' := by
        intro s s' hs h
        obtain ⟨names, h⟩ := bodyReader_cases h
        exact ih rest hlt hs h
      have he := not_end_of_statements (fun e he => ⟨(hs.sound.atEnd e he).1,
        (hs.sound.atEnd e he).2.1⟩) hs.sound.token_lt hopen h
      have hcourse := course_statement ht hs he hbody h₁
      exact hcourse.trans (ih rest hlt (hcourse.proceeds ht hs).poised h₂)

/-- Reading a source takes a course. -/
theorem course_program (ht : t.Stops) (hs : s.Poised t) {names : List SymbolId}
    (h : program t fuel s = some (names, s')) : Course t s s' := by
  induction fuel using Nat.strongRecOn generalizing s s' names with
  | ind fuel ih =>
    obtain ⟨first, s₁, h₁, hcases⟩ := program_cases h
    have hcourse := course_statements ht hs h₁
    rcases hcases with ⟨-, -, rfl⟩ | ⟨-, rest, others, rfl, -, h₂⟩
    · exact hcourse
    · have hstray := (hcourse.trans (.report s₁ s₁.token (.unexpected s₁.current.value))).trans
        (.advance _)
      exact hstray.trans
        (ih rest (Nat.lt_succ_self rest) (hstray.proceeds ht hs).poised h₂)

/-- Reading a source is a run. -/
theorem run_program (ht : t.Stops) (hs : s.Poised t) {names : List SymbolId}
    (h : program t fuel s = some (names, s')) : Run t s s' :=
  (course_program ht hs h).run ht hs

end CStruct.Parse
