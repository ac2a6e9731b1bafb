import CStruct.Proofs.Expression.Tree
import CStruct.Proofs.Parse.Naming

/-!
# Passing the symbols of an expression

Seen one after the other, without regard to how they are grouped, the symbols of an expression are
passed in a simple way: each is read, and a prefix operator is reserved in the open scope as every
keyword is. `Ahead` says which symbols come next in this way, and `Ready` what the states are like
in which an expression can start.
-/

namespace CStruct.Parse

open SymbolTable

namespace State

/-! ## What is read next -/

-- The error that is reported when the symbol is read, if there is one.
def unknownOperator (t : SymbolTable) (x : Symbol) : List Diagnostic :=
  if x.kind = .operator ∧ t.get? x.value = none then
    [(Problem.unknownOperator x.value).diagnosticAt x.span]
  else []

/-- A symbol as it is when it has been read. -/
structure Fresh (t : SymbolTable) (x : Symbol) : Prop where
  notUnary : x.kind ≠ .unary
  notBinary : x.kind ≠ .binary
  known : x.role ≠ {} → unknownOperator t x = []

theorem kindOf_ne (kind : LexemeKind) : kindOf kind ≠ .unary ∧ kindOf kind ≠ .binary := by
  cases kind <;> decide

theorem prototype?_eq_none {t : SymbolTable} {s : State} {l : Lexeme} (hl : l.isComment = false) :
    s.prototype? t l = none ↔ kindOf l.kind = .operator ∧ t.get? l.text = none := by
  unfold State.prototype?
  unfold Lexeme.isComment at hl
  cases hkind : l.kind with
  | operator => exact ⟨fun hget => ⟨rfl, hget⟩, fun h => h.2⟩
  | comment =>
    rw [hkind] at hl
    cases hl
  | _ => exact ⟨nofun, fun h => by cases h.1⟩

/-- Before the end, reading adds a symbol, which becomes the token, and reports at most that it is
an unknown operator. -/
theorem advance_of_none {t : SymbolTable} {s : State} (he : s.endSymbol? = none) :
    ∃ x ls cs e ds, s.advance t =
        { s with
          pending := ls, comments := cs, endSymbol? := e, diagnostics := ds
          symbols := s.symbols.push x, token := s.symbols.size } ∧
      Fresh t x ∧ ds.toList = s.diagnostics.toList ++ unknownOperator t x ∧
      (e ≠ none → x.role = (t.prototype endId).role) := by
  cases hnext : s.pending.dropWhile Lexeme.isComment with
  | nil =>
    have hknown : unknownOperator t (s.endSymbolOf t) = [] := if_neg fun h => by cases h.1
    refine ⟨_, _, _, _, _, advance_eq_end he hnext, ⟨nofun, nofun, fun _ => hknown⟩, ?_, fun _ => rfl⟩
    rw [hknown, List.append_nil]
    rfl
  | cons l ls =>
    have hl : l.isComment = false := by
      have := List.head?_dropWhile_not Lexeme.isComment s.pending
      rw [hnext] at this
      exact this
    -- an operator that the table does not know is made into a symbol all the same
    cases hp : s.prototype? t l with
    | some p =>
      have hknown : unknownOperator t (s.madeOf p l) = [] := if_neg fun h => by
        rw [(prototype?_eq_none hl).2 h] at hp
        cases hp
      refine ⟨_, _, _, _, _, advance_eq_push hnext hp,
        ⟨(kindOf_ne l.kind).1, (kindOf_ne l.kind).2, fun _ => hknown⟩, ?_, fun h => absurd he h⟩
      rw [hknown, List.append_nil]
      rfl
    | none =>
      have hunknown : unknownOperator t (s.madeOf { id := l.text } l) =
          [(Problem.unknownOperator l.text).diagnosticAt l.span] :=
        if_pos ((prototype?_eq_none hl).1 hp)
      refine ⟨_, _, _, _, _, advance_eq_unknown hnext hp,
        ⟨(kindOf_ne l.kind).1, (kindOf_ne l.kind).2, fun h => absurd rfl h⟩, ?_, fun h => absurd he h⟩
      rw [hunknown]
      exact Diagnostics.toList_report _ _

/-! ## States in which an expression can start -/

/-- The symbol has been read and dealt with. -/
structure Behind (s : State) (id : SymbolId) : Prop where
  lt : id < s.symbols.size
  ne : id ≠ s.token

-- If a name stands for the symbol, then only because it is a reserved keyword.
def Free (s : State) (id : SymbolId) : Prop :=
  ∀ name, s.local? name = some id → (s.symbol id).reserved = true

/-- The token has been read, and nothing has been made of it yet. -/
structure Ready (t : SymbolTable) (s : State) : Prop where
  sound : s.Sound t
  ended : s.endSymbol? ≠ none → s.current.role = (t.prototype endId).role
  named : ∀ name id, s.local? name = some id → id < s.symbols.size
  free : s.Free s.token
  notUnary : s.current.kind ≠ .unary
  notBinary : s.current.kind ≠ .binary

/-- What stays when symbols are passed. -/
structure Retains (s s' : State) : Prop where
  behind : ∀ id, s.Behind id → s'.Behind id
  free : ∀ id < s.symbols.size, s.Free id → s'.Free id
  symbols_le : s.symbols.size ≤ s'.symbols.size
  role : ∀ id < s.symbols.size, (s'.symbol id).role = (s.symbol id).role

theorem Retains.refl (s : State) : s.Retains s :=
  ⟨fun _ h => h, fun _ _ h => h, Nat.le_refl _, fun _ _ => rfl⟩

theorem Retains.trans {s s' s'' : State} (h : s.Retains s') (h' : s'.Retains s'') :
    s.Retains s'' where
  behind := fun id hid => h'.behind id (h.behind id hid)
  free := fun id hid hfree =>
    h'.free id (Nat.lt_of_lt_of_le hid h.symbols_le) (h.free id hid hfree)
  symbols_le := Nat.le_trans h.symbols_le h'.symbols_le
  role := fun id hid => (h'.role id (Nat.lt_of_lt_of_le hid h.symbols_le)).trans (h.role id hid)

section Advancing

variable {t : SymbolTable} {s : State}

theorem size_advance (he : s.endSymbol? = none) :
    (s.advance t).symbols.size = s.symbols.size + 1 := by
  obtain ⟨x, ls, cs, e, ds, heq, -⟩ := advance_of_none (t := t) he
  rw [heq]
  exact Array.size_push x

theorem behind_advance (he : s.endSymbol? = none) {id : SymbolId} (hid : id < s.symbols.size) :
    (s.advance t).Behind id := by
  refine ⟨?_, ?_⟩
  · rw [size_advance he]
    exact Nat.lt_succ_of_lt hid
  · rw [token_advance he]
    exact Nat.ne_of_lt hid

theorem local?_advance (name : String) : (s.advance t).local? name = s.local? name := by
  unfold State.advance
  dsimp only
  split
  · unfold State.readEnd
    split <;> rfl
  · unfold State.read
    dsimp only
    split <;> rfl

theorem retains_advance (he : s.endSymbol? = none) : s.Retains (s.advance t) where
  behind := fun _ hid => behind_advance he hid.lt
  free := fun id hid hfree name hname => by
    rw [symbol_advance hid]
    rw [local?_advance] at hname
    exact hfree name hname
  symbols_le := by
    rw [size_advance he]
    exact Nat.le_succ _
  role := fun id hid => by rw [symbol_advance hid]

/-- A symbol is ready to start an expression when it has just been read. -/
theorem ready_advance (he : s.endSymbol? = none) (hsound : (s.advance t).Sound t)
    (hnamed : ∀ name id, s.local? name = some id → id < s.symbols.size) : Ready t (s.advance t) := by
  obtain ⟨x, ls, cs, e, ds, heq, hfresh, -, hend⟩ := advance_of_none (t := t) he
  have hcurrent : (s.advance t).current = x := by
    rw [heq]
    exact symbol_push s x
  have htoken := token_advance (t := t) he
  refine ⟨hsound, fun hended => ?_, fun name id hname => ?_,
    fun name hname => ?_, hcurrent ▸ hfresh.notUnary, hcurrent ▸ hfresh.notBinary⟩
  · rw [hcurrent]
    apply hend
    rw [heq] at hended
    exact hended
  · rw [local?_advance] at hname
    exact (behind_advance he (hnamed name id hname)).lt
  · rw [local?_advance, htoken] at hname
    exact absurd (hnamed name _ hname) (Nat.lt_irrefl _)

theorem Ready.advance (h : Ready t s) (he : s.endSymbol? = none) :
    Ready t (s.advance t) :=
  ready_advance he h.sound.advance.sound h.named

theorem errors_advance (he : s.endSymbol? = none) :
    (s.advance t).errors = s.errors ++ unknownOperator t (s.advance t).current ∧
      ((s.advance t).current.role ≠ {} → unknownOperator t (s.advance t).current = []) := by
  obtain ⟨x, ls, cs, e, ds, heq, hfresh, hds, -⟩ := advance_of_none (t := t) he
  have hcurrent : (s.advance t).current = x := by
    rw [heq]
    exact symbol_push s x
  have herror : (unknownOperator t x).filter Diagnostic.isError = unknownOperator t x := by
    unfold unknownOperator
    split <;> rfl
  rw [hcurrent]
  refine ⟨?_, hfresh.known⟩
  rw [heq]
  show ds.toList.filter Diagnostic.isError = _
  rw [hds, List.filter_append, herror]
  rfl

end Advancing

section Reserving

variable {t : SymbolTable} {s : State} {keyword : SymbolId}

theorem retains_reserve (h : s.Behind keyword) : s.Retains (s.reserve keyword) where
  behind := fun id hid => ⟨by rw [size_reserve]; exact hid.lt, by rw [token_reserve]; exact hid.ne⟩
  free := fun id hid hfree name hname => by
    rcases local?_reserve h.lt hname with hold | ⟨rfl, hreserved⟩
    · by_cases hid : id = keyword
      · subst hid
        rcases symbol_reserve_self h.lt with heq | heq <;> rw [heq]
        exact hfree name hold
      · rw [symbol_reserve_of_ne hid]
        exact hfree name hold
    · exact hreserved
  symbols_le := Nat.le_of_eq size_reserve.symm
  role := fun id hid => by
    by_cases hid : id = keyword
    · subst hid
      rcases symbol_reserve_self h.lt with heq | heq <;> rw [heq]
    · rw [symbol_reserve_of_ne hid]

theorem Ready.reserve (h : Ready t s) (hkeyword : s.Behind keyword)
    (hplain : s.Plain keyword) : Ready t (s.reserve keyword) := by
  have hcurrent : (s.reserve keyword).current = s.current := by
    rw [State.current, token_reserve]
    exact symbol_reserve_of_ne hkeyword.ne.symm
  refine ⟨(h.sound.reserve hplain).sound, fun hended => ?_, fun name id hname => ?_,
    fun name hname => ?_, hcurrent ▸ h.notUnary, hcurrent ▸ h.notBinary⟩
  · rw [hcurrent]
    rw [endSymbol?_reserve] at hended
    exact h.ended hended
  · rw [size_reserve]
    rcases local?_reserve hkeyword.lt hname with hold | ⟨rfl, -⟩
    · exact h.named name id hold
    · exact hkeyword.lt
  · rw [token_reserve] at hname ⊢
    rw [symbol_reserve_of_ne hkeyword.ne.symm]
    rcases local?_reserve hkeyword.lt hname with hold | ⟨heq, -⟩
    · exact h.free name hold
    · exact absurd heq.symm hkeyword.ne

/-- What is made of a symbol that has been passed does not touch the token. -/
theorem Ready.modifySymbol (h : Ready t s) {id : SymbolId} (hid : s.Behind id) (hplain : s.Plain id)
    (f : Symbol → Symbol) : Ready t (s.modifySymbol id f) := by
  have htoken : (s.modifySymbol id f).symbol s.token = s.current :=
    symbol_modifySymbol_of_ne hid.ne.symm
  exact
    { sound := (h.sound.modifySymbol hplain f).sound
      ended := fun hended => by
        show ((s.modifySymbol id f).symbol s.token).role = _
        rw [htoken]
        exact h.ended hended
      named := fun name other hname => by
        rw [State.modifySymbol, Array.size_modify]
        exact h.named name other hname
      free := fun name hname => by
        show ((s.modifySymbol id f).symbol s.token).reserved = true
        rw [htoken]
        exact h.free name hname
      notUnary := by
        show ((s.modifySymbol id f).symbol s.token).kind ≠ .unary
        rw [htoken]
        exact h.notUnary
      notBinary := by
        show ((s.modifySymbol id f).symbol s.token).kind ≠ .binary
        rw [htoken]
        exact h.notBinary }

end Reserving

end State

end CStruct.Parse
