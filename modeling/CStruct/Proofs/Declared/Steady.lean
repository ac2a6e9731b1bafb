import CStruct.Proofs.Parse.Steps
import CStruct.Proofs.Parse.Trace

/-!
# Steady states

Whatever the table, the token is the last symbol that has been read, and nothing has been done with
it: a state between two units of the source is `Steady`. At the end of the source nothing moves on,
so an expression that would take the end for an operator has no end: reading does not answer there.
Nor does it where statements would go on at the end.
-/

namespace CStruct.Parse

open SymbolTable State

variable {t : SymbolTable} {s s' : State}

namespace State

/-- The token is the last symbol and has not been dealt with; at the end of the source, it is the
end. Only what stands before it has a place in a scope. -/
structure Steady (s : State) : Prop where
  size : s.symbols.size = s.token + 1
  undeclared : s.Undeclared s.token
  kind : s.current.kind ≠ .statement
  atEnd : ∀ e, s.endSymbol? = some e → s.pending = [] ∧ s.token = e ∧ s.current.kind = .endOfInput
  entry_lt : ∀ k name id, (s.scopeAt k).get? name = some id → id < s.token

/-- A symbol that has just been read. -/
structure JustRead (x : Symbol) : Prop where
  declaration? : x.declaration? = none
  kind : x.kind ≠ .statement

/-- Where there is no declaration, nothing is known after all. -/
theorem symbol_modifyDeclaration (s : State) (d : SymbolId) (f : Declaration → Declaration)
    (i : SymbolId) : (s.modifyDeclaration d f).symbol i =
      if i = d then { s.symbol i with declaration? := (s.symbol i).declaration?.map f }
      else s.symbol i := by
  by_cases hi : i = d
  · rw [if_pos hi, hi]
    by_cases hlt : d < s.symbols.size
    · exact symbol_modifySymbol_self hlt _
    · rw [symbol_of_size_le (Nat.le_of_not_lt hlt), symbol_of_size_le]
      · rfl
      · rw [State.modifyDeclaration, State.modifySymbol, Array.size_modify]
        exact Nat.le_of_not_lt hlt
  · rw [if_neg hi]
    exact symbol_modifySymbol_of_ne hi

/-! ## Reading the next symbol -/

theorem justRead_madeOf (s : State) (p : Prototype) (l : Lexeme) : JustRead (s.madeOf p l) := by
  refine ⟨rfl, ?_⟩
  show kindOf l.kind ≠ .statement
  cases l.kind <;> decide

/-- Before the end, the next symbol is added and becomes the token. -/
theorem advance_eq_add (t : SymbolTable) (he : s.endSymbol? = none) :
    ∃ x ls e cs ds, JustRead x ∧
      (∀ i, e = some i → ls = [] ∧ i = s.symbols.size ∧ x.kind = .endOfInput) ∧
      s.advance t =
        { s with
          pending := ls, symbols := s.symbols.push x, token := s.symbols.size
          endSymbol? := e, comments := cs, diagnostics := ds } := by
  cases hnext : s.pending.dropWhile Lexeme.isComment with
  | nil =>
    refine ⟨s.endSymbolOf t, [], some s.symbols.size, _, _, ⟨rfl, nofun⟩, ?_,
      advance_eq_end he hnext⟩
    rintro i ⟨⟩
    exact ⟨rfl, rfl, rfl⟩
  | cons l ls =>
    -- a lexeme makes a symbol other than the end
    have hnone (i : SymbolId) : s.endSymbol? ≠ some i := by simp [he]
    cases hp : s.prototype? t l with
    | some p =>
      exact ⟨_, ls, s.endSymbol?, _, _, justRead_madeOf s p l, fun i hi => absurd hi (hnone i),
        advance_eq_push hnext hp⟩
    | none =>
      exact ⟨_, ls, s.endSymbol?, _, _, justRead_madeOf s _ l, fun i hi => absurd hi (hnone i),
        advance_eq_unknown hnext hp⟩

/-- What is read next is steady, whatever has been done with the token. -/
theorem steady_advance (t : SymbolTable) (he : s.endSymbol? = none)
    (hentry : ∀ k name id, (s.scopeAt k).get? name = some id → id < s.symbols.size) :
    (s.advance t).Steady := by
  obtain ⟨x, ls, e, cs, ds, hx, hend, heq⟩ := advance_eq_add t he
  have hcurrent : (s.advance t).current = x := by
    rw [heq]
    exact symbol_push s x
  exact
    { size := by
        rw [heq]
        exact Array.size_push x
      undeclared := by
        show (s.advance t).current.declaration? = none
        rw [hcurrent]
        exact hx.declaration?
      kind := by
        rw [hcurrent]
        exact hx.kind
      atEnd := fun i hi => by
        rw [hcurrent]
        rw [heq] at hi ⊢
        obtain ⟨hpending, hi, hkind⟩ := hend i hi
        exact ⟨hpending, hi.symm, hkind⟩
      entry_lt := by
        rw [heq]
        exact hentry }

namespace Steady

theorem token_lt (h : s.Steady) : s.token < s.symbols.size := by
  rw [h.size]
  exact Nat.lt_succ_self _

/-- At the end, reading stays there. -/
theorem advance_of_some (h : s.Steady) (t : SymbolTable) {e : SymbolId}
    (he : s.endSymbol? = some e) : ∃ cs, s.advance t = { s with comments := cs } := by
  obtain ⟨hpending, htoken, -⟩ := h.atEnd e he
  have hnext : s.pending.dropWhile Lexeme.isComment = [] := by rw [hpending]; rfl
  refine ⟨s.comments ++ s.pending.takeWhile Lexeme.isComment, ?_⟩
  rw [advance_eq_stay he hnext, ← htoken, afterComments, hpending]

/-- What is a name is not the end. -/
theorem not_end (h : s.Steady) (hname : s.current.kind = .name) : s.endSymbol? = none := by
  by_contra he
  obtain ⟨e, he⟩ := Option.ne_none_iff_exists'.1 he
  rw [(h.atEnd e he).2.2] at hname
  cases hname

/-- What stands before the end of a list of statements is not the end. -/
theorem not_end_of_statements (h : s.Steady) (hopen : s.atClose = false) {names : List SymbolId}
    {fuel : Nat} (hread : statements t fuel s = some (names, s')) : s.endSymbol? = none :=
  Parse.not_end_of_statements (fun e he => ⟨(h.atEnd e he).1, (h.atEnd e he).2.1⟩) h.token_lt hopen
    hread

/-- Nothing is declared from the token on. -/
theorem undeclared_of_le (h : s.Steady) {id : SymbolId} (hid : s.token ≤ id) :
    s.Undeclared id := by
  rcases Nat.eq_or_lt_of_le hid with rfl | hlt
  · exact h.undeclared
  · have hsize : s.symbols.size ≤ id := by
      rw [h.size]
      exact hlt
    rw [Undeclared, symbol_of_size_le hsize]
    rfl

theorem lt_of_declared (h : s.Steady) {id : SymbolId} (hid : ¬s.Undeclared id) :
    id < s.token :=
  Nat.lt_of_not_le fun hle => hid (h.undeclared_of_le hle)

/-- A change that leaves the token and the end alone. -/
theorem of_symbol_eq (h : s.Steady) (hsize : s'.symbols.size = s.symbols.size)
    (htoken : s'.token = s.token) (hcurrent : s'.symbol s.token = s.symbol s.token)
    (hpending : s'.pending = s.pending) (hend : s'.endSymbol? = s.endSymbol?)
    (hentry : ∀ k name id, (s'.scopeAt k).get? name = some id → id < s.token) : s'.Steady := by
  have hcurrent' : s'.current = s.current := by rw [current, htoken, hcurrent]; rfl
  exact
    { size := by rw [hsize, htoken, h.size]
      undeclared := by
        rw [Undeclared, htoken, hcurrent]
        exact h.undeclared
      kind := by
        rw [hcurrent']
        exact h.kind
      atEnd := by
        rw [hend, hpending, htoken, hcurrent']
        exact h.atEnd
      entry_lt := by
        rw [htoken]
        exact hentry }

theorem modifySymbol (h : s.Steady) {id : SymbolId} (hid : id < s.token) (f : Symbol → Symbol) :
    (s.modifySymbol id f).Steady :=
  h.of_symbol_eq Array.size_modify rfl (symbol_modifySymbol_of_ne (Nat.ne_of_gt hid)) rfl rfl
    h.entry_lt

theorem reportAt (h : s.Steady) (ds : Diagnostics) : Steady { s with diagnostics := ds } :=
  h.of_symbol_eq rfl rfl rfl rfl rfl h.entry_lt

theorem advance (h : s.Steady) (t : SymbolTable) : (s.advance t).Steady := by
  cases he : s.endSymbol? with
  | none =>
    exact steady_advance t he fun k name id hk => Nat.lt_trans (h.entry_lt k name id hk) h.token_lt
  | some e =>
    obtain ⟨cs, heq⟩ := h.advance_of_some t he
    rw [heq]
    exact h.of_symbol_eq rfl rfl rfl rfl rfl h.entry_lt

end Steady

/-! ## The end -/

namespace Ended

variable {role : Role}

theorem reserve (h : s.Ended (·.role = role)) (keyword : SymbolId) :
    (s.reserve keyword).Ended (·.role = role) := by
  rcases reserve_cases s keyword with heq | ⟨ds, -, heq⟩
  · rw [heq]
    exact h
  · rw [heq]
    have hreport : Ended { s with diagnostics := ds } (·.role = role) := h.of_eq rfl rfl rfl rfl
    have hmark := hreport.modifySymbol keyword (f := ({ · with reserved := true })) fun _ h => h
    exact hmark.of_eq rfl rfl rfl rfl

theorem of_nud (h : s.Ended (·.role = role)) {read : ExpressionReader}
    (hread : ∀ m s top s', read m s = some (top, s') → s.Ended (·.role = role) →
      s'.Ended (·.role = role) ∧ role.nud ≠ some .prefixed)
    (hnull : nullDenotation read s.token (s.advance t) = some s') :
    s'.Ended (·.role = role) ∧ role.nud ≠ some .prefixed := by
  have hadvance := h.advance t
  have hnud : ((s.advance t).symbol s.token).role.nud = role.nud := by
    rw [symbol_advance h.token_lt]
    exact congrArg (·.nud) h.current
  rcases nullDenotation_cases hnull with ⟨hitself, rfl⟩ |
    ⟨hprefixed, operand, s₂, hoperand, -⟩ | ⟨hnone, rfl⟩
  · exact ⟨hadvance, by rw [← hnud, hitself]; nofun⟩
  · -- a prefix operator would take itself for its operand, over and over
    exact absurd (hnud.symm.trans hprefixed) (hread _ _ _ _ hoperand (hadvance.reserve s.token)).2
  · exact ⟨hadvance.of_eq rfl rfl rfl rfl, by rw [← hnud, hnone]; nofun⟩

theorem of_led (h : s.Ended (·.role = role)) {read : ExpressionReader} {left : SymbolId}
    (hread : ∀ m s top s', read m s = some (top, s') → s.Ended (·.role = role) →
      s'.Ended (·.role = role) ∧ role.nud ≠ some .prefixed)
    (hleft : leftDenotation read s.token left (s.advance t) = some s') :
    s'.Ended (·.role = role) := by
  have hadvance := h.advance t
  rcases leftDenotation_cases hleft with ⟨-, right, s₂, hright, rfl⟩ | ⟨-, rfl⟩
  · exact (hread _ _ _ _ hright hadvance).1.modifySymbol _ fun _ h => h
  · exact hadvance.of_eq rfl rfl rfl rfl

end Ended

/-- At the end, an expression is read only if the end neither takes an operand nor binds one. -/
theorem ended_expression_operators (t : SymbolTable) (role : Role) (fuel : Nat) :
    (∀ m s top s', expression t fuel m s = some (top, s') → s.Ended (·.role = role) →
      s'.Ended (·.role = role) ∧ role.nud ≠ some .prefixed) ∧
    (∀ m left s top s', operators t fuel m left s = some (top, s') → s.Ended (·.role = role) →
      s'.Ended (·.role = role) ∧ role.bindingPower ≤ m) := by
  induction fuel using Nat.strongRecOn with
  | ind fuel ih =>
    refine ⟨fun m s top s' h hs => ?_, fun m left s top s' h hs => ?_⟩
    · obtain ⟨n, s₁, rfl, hnull, hoperators⟩ := expression_cases h
      obtain ⟨ihexpression, ihoperators⟩ := ih n (Nat.lt_succ_self n)
      obtain ⟨hs₁, hnud⟩ := hs.of_nud ihexpression hnull
      exact ⟨(ihoperators _ _ _ _ _ hoperators hs₁).1, hnud⟩
    · rcases operators_cases h with ⟨hpower, heq⟩ | ⟨-, n, s₁, rfl, hleft, hoperators⟩
      · cases heq
        rw [hs.current] at hpower
        exact ⟨hs, hpower⟩
      · -- after one operator the end is there again, so that the bound must hold it back
        obtain ⟨ihexpression, ihoperators⟩ := ih n (Nat.lt_succ_self n)
        exact ihoperators _ _ _ _ _ hoperators (hs.of_led ihexpression hleft)

theorem Steady.ended (h : s.Steady) (he : s.endSymbol? ≠ none) {α : Type} (get : Symbol → α) :
    s.Ended (get · = get s.current) := by
  obtain ⟨e, he⟩ := Option.ne_none_iff_exists'.1 he
  obtain ⟨hpending, rfl, -⟩ := h.atEnd e he
  exact ⟨he, hpending, h.token_lt, rfl⟩

end State

end CStruct.Parse
