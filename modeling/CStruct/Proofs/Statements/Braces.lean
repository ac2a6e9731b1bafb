import CStruct.Proofs.Declared.Lengths
import CStruct.Proofs.Statements.Reached

/-!
# Closing braces in declarations of members

A declaration of members leaves a closing brace to the struct around it, also where something of the
declaration is missing, but for one place: the length of an array is one symbol, whichever it is,
and the symbol behind it counts as the closing bracket. A brace in one of these two places is passed,
and the struct goes on.
-/

namespace CStruct.Parse

open SymbolTable State

variable {s s' s'' : State} {keyword id name : SymbolId} {fuel : Nat} {P : SymbolId → Prop}

/-! ## What is known of a C source -/

namespace State

/-- Nothing binds and nothing takes an operand, the end goes by its own name, and what is left to be
read is spelled as it has to be. -/
structure Simple (s : State) : Prop where
  endsAs : s.EndsAs endId
  power : ∀ id, (s.symbol id).role.bindingPower = 0
  nud : ∀ id, (s.symbol id).role.nud ≠ some .prefixed
  spelled : ∀ l ∈ s.pending, l.IsSpelled

theorem Simple.trace (h : s.Simple) (htrace : Trace cStructs s s') : s'.Simple where
  endsAs := by
    have hid : (cStructs.prototype endId).id = endId := ends_cStructs.id
    rw [← hid]
    exact EndsAs.trace (by rw [hid]; exact h.endsAs) htrace
  power := htrace.role (R := fun role => role.bindingPower = 0)
    (role_of_table (R := fun role => role.bindingPower = 0) rfl (by decide)) rfl h.power
  nud := htrace.role (R := fun role => role.nud ≠ some .prefixed) nud_of_table (by decide) h.nud
  spelled := fun l hl => h.spelled l (htrace.pending.subset hl)

/-- A change to other things than symbols. -/
theorem Simple.of_eq (h : s.Simple) (symbols : s'.symbols = s.symbols) (token : s'.token = s.token)
    (endSymbol : s'.endSymbol? = s.endSymbol?) (pending : s'.pending = s.pending) : s'.Simple := by
  have hsymbol (id : SymbolId) : s'.symbol id = s.symbol id := by rw [symbol, symbol, symbols]
  refine ⟨fun he => ?_, fun id => ?_, fun id => ?_, ?_⟩
  · rw [endSymbol] at he
    exact (h.endsAs he).of_eq endSymbol token pending symbols
  · rw [hsymbol]
    exact h.power id
  · rw [hsymbol]
    exact h.nud id
  · rw [pending]
    exact h.spelled

theorem simple_ofLexemes (source : String) :
    (State.ofLexemes (Lexicon.lexemes source).1 (Lexicon.lexemes source).2.position).Simple :=
  ⟨fun he => absurd rfl he, fun _ => rfl, nofun, fun _ hl => Lexicon.isSpelled_of_mem_lexemes hl⟩

theorem simple_ofSource (source : String) : (State.ofSource source).Simple :=
  (simple_ofLexemes source).trace (.advance _)

/-- A token that is spelled like the closing brace is one. -/
def Braced (s : State) : Prop :=
  s.endSymbol? = none → s.current.value = closeBrace →
    s.check closeBrace = true ∧ s.current.kind ≠ .name

/-- No word and no number is spelled like the closing brace. -/
theorem prototype_of_brace {l : Lexeme} (h : l.IsSpelled) (hcomment : l.isComment = false)
    (htext : l.text = closeBrace) :
    (s.prototypeOf cStructs l).id = closeBrace ∧ kindOf l.kind ≠ .name := by
  have hkind := h.kind_eq_operator hcomment (by rw [htext]; decide)
  rw [State.prototypeOf, State.prototype?, hkind]
  dsimp only
  rw [htext]
  exact ⟨by decide, by decide⟩

theorem braced_advance (hs : s.Simple) : (s.advance cStructs).Braced := by
  intro he hvalue
  have he₀ : s.endSymbol? = none := (Spares.advance 0 cStructs s).endSymbol? he
  rcases advance_cases cStructs s with ⟨l, ls, hnext, hadds⟩ | ⟨-, -, hadds⟩ | ⟨-, hsome, -⟩
  · have hadded := hadds.symbol (Nat.lt_irrefl s.symbols.size)
    rw [← token_advance (t := cStructs) he₀, List.mem_singleton] at hadded
    rcases hadded with hcurrent | hcurrent
    · rw [current, hcurrent] at hvalue
      exact absurd hvalue (by decide)
    · rw [current, hcurrent] at hvalue
      have hmem : l ∈ s.pending := (List.dropWhile_suffix Lexeme.isComment).subset (by
        rw [hnext]
        exact List.mem_cons_self)
      obtain ⟨hid, hkind⟩ := prototype_of_brace (s := s) (hs.spelled l hmem)
        (isComment_of_next hnext) hvalue
      rw [check, current, hcurrent]
      exact ⟨beq_iff_eq.2 hid, hkind⟩
  · rw [hadds.endSymbol] at he
    cases he
  · rw [he₀] at hsome
    cases hsome

theorem braced_expect (hs : s.Simple) (other : String) : (s.expect cStructs other).Braced := by
  unfold State.expect
  split
  · exact braced_advance hs
  · exact braced_advance (hs.trace (.reportExpected s other))

/-! ## Symbols that are passed -/

/-- The symbol is the length of an array member declared with the keyword, or stands right behind
it, where the closing bracket should be. -/
def InLength (s : State) (keyword id : SymbolId) : Prop :=
  ∃ name, (s.symbol name).declaredType? = some keyword ∧ (s.symbol (name + 1)).id = "[" ∧
    (id = name + 2 ∨ id = name + 3)

/-- Between the two states, the closing braces that are passed are all lengths of members or stand
behind them. -/
def Leaves (keyword : SymbolId) (s s' : State) : Prop :=
  ∀ id, s.token ≤ id → id < s'.token → (s'.symbol id).value = closeBrace → s'.InLength keyword id

namespace Leaves

theorem of_token_le (h : s'.token ≤ s.token) : Leaves keyword s s' :=
  fun _ hle hlt _ => absurd (Nat.lt_of_le_of_lt hle hlt) (Nat.not_lt_of_le h)

theorem trans (h : Leaves keyword s s') (hs' : s'.Steady) (hspares : Spares s'.token s' s'')
    (h' : Leaves keyword s' s'') : Leaves keyword s s'' := by
  intro id hle hlt hvalue
  by_cases hid : id < s'.token
  · -- what was passed before does not change any more
    have hsame {i : SymbolId} (hi : i < s'.token) : s''.symbol i = s'.symbol i :=
      hspares.symbol_of_lt hs'.bounds hi
    rw [hsame hid] at hvalue
    obtain ⟨name, htype, hbracket, hplace⟩ := h id hle hid hvalue
    have hnext : name + 1 < s'.token := by
      rcases hplace with rfl | rfl
      · exact Nat.lt_of_succ_lt hid
      · exact Nat.lt_of_succ_lt (Nat.lt_of_succ_lt hid)
    refine ⟨name, ?_, ?_, hplace⟩
    · rw [hsame (Nat.lt_of_succ_lt hnext)]
      exact htype
    · rw [hsame hnext]
      exact hbracket
  · exact h' id (Nat.le_of_not_lt hid) hlt hvalue

/-- Of four symbols the first two are no closing braces, and the other two stand behind the bracket. -/
theorem of_array (htokens : s'.token ≤ s.token + 4)
    (hname : (s'.symbol s.token).value ≠ closeBrace)
    (hbracket : (s'.symbol (s.token + 1)).value ≠ closeBrace)
    (hid : (s'.symbol (s.token + 1)).id = "[")
    (htype : (s'.symbol s.token).declaredType? = some keyword) : Leaves keyword s s' := by
  intro id hle hlt hvalue
  obtain ⟨n, rfl⟩ := Nat.exists_eq_add_of_le hle
  have hn : n < 4 := Nat.lt_of_add_lt_add_left (Nat.lt_of_lt_of_le hlt htokens)
  refine ⟨s.token, htype, hid, ?_⟩
  rcases n with _ | _ | _ | _ | n
  · exact absurd hvalue hname
  · exact absurd hvalue hbracket
  · exact .inl rfl
  · exact .inr rfl
  · exact absurd hn (Nat.not_lt_of_le (Nat.le_add_left 4 n))

end Leaves

theorem Steady.token_advance_le (hs : s.Steady) (t : SymbolTable) :
    (s.advance t).token ≤ s.token + 1 := by
  cases he : s.endSymbol? with
  | none => rw [token_advance he, hs.size]
  | some e =>
    obtain ⟨cs, heq⟩ := hs.advance_of_some t he
    rw [heq]
    exact Nat.le_succ _

theorem token_modifyDeclaration (s : State) (d : SymbolId) (f : Declaration → Declaration) :
    (s.modifyDeclaration d f).token = s.token := rfl

theorem token_checkLength (s : State) (length : SymbolId) :
    (s.checkLength length).token = s.token := by
  unfold State.checkLength
  split <;> rfl

theorem Simple.checkLength (h : s.Simple) (length : SymbolId) : (s.checkLength length).Simple := by
  unfold State.checkLength
  split
  · exact h
  · exact h.trace (.report _ _ _)

theorem Steady.token_expect_le (hs : s.Steady) (t : SymbolTable) (id : String) :
    (s.expect t id).token ≤ s.token + 1 := by
  unfold State.expect
  split
  · exact hs.token_advance_le t
  · exact (hs.reportAt _).token_advance_le t

/-- What is passed is no closing brace if it is no such token, or a name. -/
theorem leaves_advance (hs : s.Steady) (hbraced : s.Braced)
    (hne : s.check closeBrace = false ∨ s.current.kind = .name) :
    Leaves keyword s (s.advance cStructs) := by
  cases he : s.endSymbol? with
  | none =>
    intro id hle hlt hvalue
    rw [token_advance he, hs.size] at hlt
    have hid : id = s.token := Nat.le_antisymm (Nat.le_of_lt_succ hlt) hle
    rw [hid, symbol_advance hs.token_lt] at hvalue
    obtain ⟨hcheck, hkind⟩ := hbraced he hvalue
    rcases hne with hother | hname
    · exact absurd (hother.symm.trans hcheck) nofun
    · exact absurd hname hkind
  | some e =>
    obtain ⟨cs, heq⟩ := hs.advance_of_some cStructs he
    rw [heq]
    exact .of_token_le (Nat.le_refl _)

end State

/-! ## Lengths -/

/-- Without operators that bind, an expression is one symbol. -/
theorem token_expression_le (hs : s.Steady) (hsimple : s.Simple) {m : Nat} {top : SymbolId}
    (h : expression cStructs fuel m s = some (top, s')) : s'.token ≤ s.token + 1 := by
  obtain ⟨n, s₁, rfl, hnull, hoperators⟩ := expression_cases h
  have hadvance := hs.token_advance_le cStructs
  have hnext := hsimple.trace (Trace.advance s)
  have hfirst : s₁.token ≤ s.token + 1 ∧ s₁.Simple := by
    rcases nullDenotation_cases hnull with ⟨-, rfl⟩ | ⟨hprefixed, -⟩ | ⟨-, rfl⟩
    · exact ⟨hadvance, hnext⟩
    · exact absurd hprefixed (hnext.nud s.token)
    · exact ⟨hadvance, hnext.trace (.report _ _ _)⟩
  rcases operators_cases hoperators with ⟨-, heq⟩ | ⟨hpower, -⟩
  · cases heq
    exact hfirst.1
  · rw [show s₁.current.role.bindingPower = 0 from hfirst.2.power _] at hpower
    exact absurd hpower (Nat.not_lt_zero m)

/-- A name is no closing brace. -/
theorem State.Braced.value_ne (h : s.Braced) (hs : s.Steady) (hname : s.current.kind = .name) :
    s.current.value ≠ closeBrace :=
  fun hvalue => (h (hs.not_end hname) hvalue).2 hname

/-- A token that is something else is no closing brace. -/
theorem State.Braced.value_ne_of_check (h : s.Braced) (he : s.endSymbol? = none) {other : String}
    (hcheck : s.check other = true) (hother : other ≠ closeBrace) :
    s.current.value ≠ closeBrace := by
  intro hvalue
  have hid := beq_iff_eq.1 (h he hvalue).1
  exact hother ((beq_iff_eq.1 hcheck).symm.trans hid)

theorem State.Braced.modifyDeclaration (h : s.Braced) (d : SymbolId)
    (f : Declaration → Declaration) : (s.modifyDeclaration d f).Braced := by
  have hcurrent : (s.modifyDeclaration d f).current = _ := symbol_modifyDeclaration s d f s.token
  intro he hvalue
  rw [check, hcurrent]
  rw [hcurrent] at hvalue
  split at hvalue
  · rename_i hd
    rw [if_pos hd]
    exact h he hvalue
  · rename_i hd
    rw [if_neg hd]
    exact h he hvalue

section Lengths

variable (hs : s.Steady) (h : dimension cStructs name s = some s')
include hs h

theorem token_dimension_le (hsimple : s.Simple) : s'.token ≤ s.token + 2 := by
  obtain ⟨length, s₁, hread, rfl⟩ := dimension_cases h
  have hlength := idle_expression hs hread
  have hliteral := Idle.checkLength s₁.token hlength.steady length
  rw [token_modifyDeclaration]
  calc ((s₁.checkLength length).expect cStructs "]").token
    _ ≤ (s₁.checkLength length).token + 1 := hliteral.steady.token_expect_le cStructs "]"
    _ = s₁.token + 1 := by rw [token_checkLength]
    _ ≤ s.token + 1 + 1 := Nat.succ_le_succ (token_expression_le hs hsimple hread)

omit hs in
theorem braced_dimension (hsimple : s.Simple) : s'.Braced := by
  obtain ⟨length, s₁, hread, rfl⟩ := dimension_cases h
  exact (braced_expect ((hsimple.trace (.of_expression hread)).checkLength length)
    "]").modifyDeclaration _ _

/-- The member knows its keyword as before. -/
theorem declaredType?_dimension {k : ScopeId} {x : Declaration}
    (hdeclared : s.IsDeclared name k .member x) :
    (s'.symbol name).declaredType? = some x.declaredType := by
  obtain ⟨length, s₁, hread, rfl⟩ := dimension_cases h
  have hlength := idle_expression hs hread
  have hliteral := hlength.trans (.checkLength s.token hlength.steady length) (Nat.le_refl _)
  have hidle := hliteral.trans (.expect s.token hliteral.steady cStructs "]") (Nat.le_refl _)
  have hlast := hidle.isDeclared hs.bounds hdeclared
  exact (hlast.modifyDeclaration ({ · with dimension? := some length }) rfl).declaredType?_eq

end Lengths

/-! ## Declarators -/

theorem leaves_member (hs : s.Steady) (hbraced : s.Braced) (hname : s.current.kind = .name) :
    Leaves keyword s ((s.define s.token keyword).advance cStructs) := by
  intro id hle hlt hvalue
  rw [token_advance ((endSymbol?_define s s.token keyword).trans (hs.not_end hname)),
    size_define, hs.size] at hlt
  have htrace : Trace cStructs s ((s.define s.token keyword).advance cStructs) :=
    (Trace.define s s.token keyword).trans (.advance _)
  rw [Nat.le_antisymm (Nat.le_of_lt_succ hlt) hle, htrace.value hs.token_lt] at hvalue
  exact absurd hvalue (hbraced.value_ne hs hname)

section Declarators

variable (hs : s.Steady) (hc : s.Consistent P) (hsimple : s.Simple) (hbraced : s.Braced)
  (hkeyword : s.IsKeyword keyword .member) (hk : s.scope ≠ 0)
include hs hc hsimple hbraced hkeyword hk

/-- Of what is passed in the declaration of an array, only the length and the symbol behind it can be
closing braces. -/
theorem leaves_array (hname : s.current.kind = .name)
    (hbracket : ((s.define s.token keyword).advance cStructs).check "[" = true)
    (h : dimension cStructs s.token
      (((s.define s.token keyword).advance cStructs).advance cStructs) = some s') :
    Leaves keyword s s' ∧ s'.Braced := by
  obtain ⟨hmember, hdeclared⟩ := brings_member (t := cStructs) hs hc hname hkeyword hk
  have htoken : ((s.define s.token keyword).advance cStructs).token = s.token + 1 := by
    rw [token_advance ((endSymbol?_define s s.token keyword).trans (hs.not_end hname)),
      size_define, hs.size]
  have htrace : Trace cStructs s ((s.define s.token keyword).advance cStructs) :=
    (Trace.define s s.token keyword).trans (.advance _)
  have hbraced₁ : ((s.define s.token keyword).advance cStructs).Braced :=
    braced_advance (hsimple.trace (.define s s.token keyword))
  generalize (s.define s.token keyword).advance cStructs = s₁ at *
  have hsimple₁ := hsimple.trace htrace
  have hsimple₂ := hsimple₁.trace (.advance s₁)
  have hopen := Idle.advance s₁.token hmember.steady cStructs
  have hrest : Trace cStructs s₁ s' := (Trace.advance s₁).trans (.of_dimension h)
  have hend : s₁.endSymbol? = none := hsimple₁.endsAs.not_end (by
    rw [check, beq_iff_eq.1 hbracket]
    decide)
  refine ⟨.of_array ?_ ?_ ?_ ?_ ?_, braced_dimension h hsimple₂⟩
  -- the name, the bracket, the length and the closing bracket have been passed
  · calc s'.token
      _ ≤ (s₁.advance cStructs).token + 2 := token_dimension_le hopen.steady h hsimple₂
      _ ≤ s₁.token + 1 + 2 := Nat.add_le_add_right (hmember.steady.token_advance_le cStructs) 2
      _ = s.token + 4 := by rw [htoken]
  · rw [(htrace.trans hrest).value hs.token_lt]
    exact hbraced.value_ne hs hname
  · rw [← htoken, hrest.value hmember.steady.token_lt]
    exact hbraced₁.value_ne_of_check hend hbracket (by decide)
  · rw [← htoken, hrest.spares.id _ hmember.steady.token_lt]
    exact beq_iff_eq.1 hbracket
  · exact declaredType?_dimension hopen.steady h (hopen.isDeclared hmember.steady.bounds hdeclared)

theorem leaves_declarator (h : declarator cStructs keyword s = some s') :
    Leaves keyword s s' ∧ s'.Braced := by
  unfold declarator at h
  split at h
  · rename_i hname
    dsimp only at h
    split at h
    · rename_i hbracket
      exact leaves_array hs hc hsimple hbraced hkeyword hk hname hbracket h
    · cases h
      exact ⟨leaves_member hs hbraced hname,
        braced_advance (hsimple.trace (.define s s.token keyword))⟩
  · cases h
    split
    · exact ⟨.of_token_le (Nat.le_refl _), hbraced⟩
    · rename_i hother
      have hclose : s.check closeBrace = false := by
        rw [Bool.or_eq_true, not_or, atClose, Bool.or_eq_true, not_or] at hother
        exact Bool.eq_false_iff.2 hother.2.1
      exact ⟨leaves_advance (s := s.report s.token .memberNameMissing) (hs.reportAt _) hbraced
        (.inl hclose), braced_advance (hsimple.trace (.report _ _ _))⟩

theorem leaves_declarators (h : declarators cStructs keyword fuel s = some s') :
    Leaves keyword s s' ∧ s'.Braced := by
  -- on the fuel, which the recursion behind a comma spends
  induction fuel using Nat.strongRecOn generalizing s with
  | ind fuel ih =>
    obtain ⟨s₁, h₁, hcases⟩ := declarators_cases h
    have hfirst := brings_declarator hs hc hkeyword hk h₁
    obtain ⟨hleaves, hbraced₁⟩ := leaves_declarator hs hc hsimple hbraced hkeyword hk h₁
    rcases hcases with ⟨-, rfl⟩ | ⟨hcomma, rest, rfl, h₂⟩
    · exact ⟨hleaves, hbraced₁⟩
    · have hsimple₁ := hsimple.trace (.of_declarator h₁)
      have hother : s₁.check closeBrace = false := by
        rw [check, beq_iff_eq.1 hcomma]
        decide
      have hcomma : Leaves keyword s₁ (s₁.advance cStructs) :=
        leaves_advance hfirst.steady hbraced₁ (.inl hother)
      have hpassed := hfirst.advance hs cStructs
      have hkeyword := hpassed.isKeyword hs.bounds hkeyword
      have hk : (s₁.advance cStructs).scope ≠ 0 := by
        rw [hpassed.scope]
        exact hk
      obtain ⟨hrest, hbraced'⟩ := ih rest (Nat.lt_succ_self rest) hpassed.steady
        hpassed.consistent (hsimple₁.trace (.advance s₁)) (braced_advance hsimple₁) hkeyword hk h₂
      have hspares := brings_declarators hpassed.steady hpassed.consistent hkeyword hk h₂
      exact ⟨(hleaves.trans hfirst.steady (.advance _ cStructs s₁) hcomma).trans hpassed.steady
        hspares.toSpares hrest, hbraced'⟩

/-- Where the semicolon is missing before a closing brace, the brace is left. -/
theorem leaves_members (hinside : s.isGlobal = false) (h : members cStructs keyword s = some s') :
    Leaves keyword s s' := by
  unfold members at h
  rw [hinside] at h
  obtain ⟨s₁, h₁, rfl⟩ := Option.map_eq_some_iff.1 h
  obtain ⟨hleaves, hbraced₁⟩ := leaves_declarators hs hc hsimple hbraced hkeyword hk h₁
  have hall := brings_declarators hs hc hkeyword hk h₁
  split
  · exact hleaves
  · rename_i hclose
    rw [atClose, Bool.or_eq_true, not_or] at hclose
    have hother := Bool.eq_false_iff.2 hclose.1
    apply hleaves.trans hall.steady (Idle.expect _ hall.steady cStructs ";").toSpares
    unfold State.expect
    split
    · exact leaves_advance hall.steady hbraced₁ (.inl hother)
    · exact leaves_advance (s := s₁.reportExpected ";") (hall.steady.reportAt _) hbraced₁
        (.inl hother)

end Declarators

/-! ## Declarations of members -/

/-- Reserving the keyword does not touch the token behind it. -/
theorem braced_enterStatement (hs : s.Steady) (he : s.endSymbol? = none) (hsimple : s.Simple) :
    (s.enterStatement cStructs).Braced := by
  have hne : (s.advance cStructs).token ≠ s.token := by
    rw [token_advance he, hs.size]
    exact Nat.succ_ne_self _
  have hcurrent : (s.enterStatement cStructs).current = (s.advance cStructs).current := by
    show (s.enterStatement cStructs).symbol ((s.advance cStructs).reserve s.token).token = _
    rw [token_reserve, State.enterStatement, symbol_modifySymbol_of_ne hne,
      symbol_reserve_of_ne hne]
    rfl
  intro hend hvalue
  rw [hcurrent] at hvalue
  rw [check, hcurrent]
  exact braced_advance hsimple (endSymbol?_reserve.symm.trans hend) hvalue

/-- Reading a declaration of members in the body of a struct comes to an end, and of the closing
braces that it meets it leaves each to the struct, but for one in the place of the length of an array
or of the closing bracket behind that. -/
theorem members_leave_braces {source : String} (hreached : Reaches cStructs (.ofSource source) s)
    (hopen : s.atClose = false) (hstd : s.current.role.std = some .member)
    (hinside : s.isGlobal = false) :
    ∃ s', members cStructs s.token (s.enterStatement cStructs) = some s' ∧
      ∀ id, (s.enterStatement cStructs).token ≤ id → id < s'.symbols.size →
        (s'.symbol id).value = closeBrace → id = s'.token ∨ s'.InLength s.token id := by
  have hstart : (State.ofSource source).Regular := regular_ofLexemes _ _ _
  have hsimple : s.Simple := hreached.keeps (fun _ _ htrace h => h.trace htrace)
    (fun _ h => h.of_eq rfl rfl rfl rfl) (simple_ofSource source)
  have he := hsimple.endsAs.not_end (Bool.or_eq_false_iff.1 hopen).2
  have hregular := hreached.regular hstart he
  obtain ⟨P, hc⟩ := hregular.consistent
  have hsound := hreached.sound ends_cStructs hstart (sound_ofLexemes cStructs _ _)
  obtain ⟨hidle, hkeyword, -⟩ := idle_enterStatement (t := cStructs) hregular.steady he hstd
  have hbraced := braced_enterStatement hregular.steady he hsimple
  obtain ⟨s', hread, -⟩ := members_isSome ends_cStructs
    (advances_enterStatement hsound he).leads.sound s.token
  have hconsistent := hc.of_idle hregular.steady hidle
  have hglobal : (s.enterStatement cStructs).isGlobal = false := by
    rw [isGlobal, hidle.outer]
    exact hinside
  have hk : (s.enterStatement cStructs).scope ≠ 0 := hconsistent.inside fun houter => by
    rw [isGlobal, houter] at hglobal
    cases hglobal
  have hsteady := (brings_members hidle.steady hconsistent hkeyword hread).steady
  refine ⟨s', hread, fun id hle hlt hvalue => ?_⟩
  rw [hsteady.size] at hlt
  -- the brace is the token, unless it has been passed
  rcases Nat.lt_or_eq_of_le (Nat.le_of_lt_succ hlt) with hpassed | hlast
  · exact .inr (leaves_members hidle.steady hconsistent
      (hsimple.trace (.of_enterStatement cStructs s)) hbraced hkeyword hk hglobal hread id hle
      hpassed hvalue)
  · exact .inl hlast

/-- The closing bracket of `x` is missing, and `b` is declared inside `a` then. -/
def unclosedLength : String := "struct a \x7b int x[3 \x7d; struct b \x7b int y; \x7d;"

/-- In the body of `a`, where `x` is about to be declared. -/
def unclosedMember : State := ((State.ofSource unclosedLength).passOpenBrace cStructs).openScope

theorem unclosedMember_reached :
    Reaches cStructs (State.ofSource unclosedLength) unclosedMember ∧
      unclosedMember.atClose = false ∧ unclosedMember.current.role.std = some .member ∧
      unclosedMember.isGlobal = false := by
  obtain ⟨hbody, hopen, hstd, hrest⟩ :
      ¬((State.ofSource unclosedLength).passHead cStructs).check ";" = true ∧
      (State.ofSource unclosedLength).atClose = false ∧
      (State.ofSource unclosedLength).current.role.std = some .struct ∧
      unclosedMember.atClose = false ∧ unclosedMember.current.role.std = some .member ∧
      unclosedMember.isGlobal = false := by
    decide +kernel
  exact ⟨.body .refl hopen hstd (if_neg hbody), hrest⟩

/-- The declaration of `x` passes the closing brace, the eighth symbol of the source. -/
theorem unclosedMember_passes_brace :
    ∃ s', members cStructs unclosedMember.token (unclosedMember.enterStatement cStructs) = some s' ∧
      (unclosedMember.enterStatement cStructs).token ≤ 7 ∧ 7 < s'.symbols.size ∧
      (s'.symbol 7).value = closeBrace ∧ 7 ≠ s'.token := by
  have hpassed : ((members cStructs unclosedMember.token
      (unclosedMember.enterStatement cStructs)).any fun s =>
        (unclosedMember.enterStatement cStructs).token ≤ 7 ∧ 7 < s.symbols.size ∧
          (s.symbol 7).value = closeBrace ∧ 7 ≠ s.token) = true := by
    decide +kernel
  obtain ⟨s', hread, hfacts⟩ := (Option.any_eq_true _ _).1 hpassed
  exact ⟨s', hread, of_decide_eq_true hfacts⟩

theorem brace_of_unclosedMember :
    ∃ s', members cStructs unclosedMember.token (unclosedMember.enterStatement cStructs) = some s' ∧
      s'.InLength unclosedMember.token 7 := by
  obtain ⟨hreached, hopen, hstd, hinside⟩ := unclosedMember_reached
  obtain ⟨s', hread, hbraces⟩ := members_leave_braces hreached hopen hstd hinside
  obtain ⟨s'', hread', hle, hlt, hvalue, hne⟩ := unclosedMember_passes_brace
  cases hread.symm.trans hread'
  exact ⟨s', hread, (hbraces 7 hle hlt hvalue).resolve_left hne⟩

theorem not_members_leave_every_brace :
    ¬∀ (source : String) (s s' : State), Reaches cStructs (.ofSource source) s →
      s.atClose = false → s.current.role.std = some .member → s.isGlobal = false →
      members cStructs s.token (s.enterStatement cStructs) = some s' →
      ∀ id, (s.enterStatement cStructs).token ≤ id → id < s'.symbols.size →
        (s'.symbol id).value = closeBrace → id = s'.token := by
  intro h
  obtain ⟨hreached, hopen, hstd, hinside⟩ := unclosedMember_reached
  obtain ⟨s', hread, hle, hlt, hvalue, hne⟩ := unclosedMember_passes_brace
  exact hne (h _ _ s' hreached hopen hstd hinside hread 7 hle hlt hvalue)

end CStruct.Parse
