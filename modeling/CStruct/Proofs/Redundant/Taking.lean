import CStruct.Proofs.Scopes.Standing
import CStruct.Proofs.Spacing.Unplaced
import CStruct.Proofs.Statements.Trace

/-!
# Taking one symbol after the other

As long as nothing is remarked, reading takes one symbol after the other off what is ahead, and each
gets the prototype that the table has for its spelling or one that declared names have.
-/

namespace CStruct.Parse

open SymbolTable State

variable {s s' s'' : State} {l : Lexeme} {ls : List Lexeme} {t : SymbolTable}

namespace State

/-- The lexemes that are still to be read, wherever they stand, and without comments. -/
def ahead (s : State) : List Lexeme :=
  (s.pending.filter fun l => !l.isComment).map Lexeme.unplaced

/-- The next symbol is taken, and nothing is remarked. -/
structure Takes (s s' : State) (x : Symbol) : Prop where
  symbols : s'.symbols = s.symbols.push x
  token : s'.token = s.symbols.size
  scopes : s'.scopes = s.scopes
  scope : s'.scope = s.scope
  outer : s'.outer = s.outer
  diagnostics : s'.diagnostics = s.diagnostics

namespace Takes

variable {x : Symbol}

theorem scopeAt (h : s.Takes s' x) (c : ScopeId) : s'.scopeAt c = s.scopeAt c := by
  rw [State.scopeAt, h.scopes, State.scopeAt]

theorem size (h : s.Takes s' x) : s'.symbols.size = s.symbols.size + 1 := by
  rw [h.symbols, Array.size_push]

theorem symbol_of_lt (h : s.Takes s' x) {id : SymbolId} (hid : id < s.symbols.size) :
    s'.symbol id = s.symbol id := by
  rw [State.symbol, h.symbols]
  exact symbol_push_of_lt hid

theorem symbol_new (h : s.Takes s' x) : s'.symbol s.symbols.size = x := by
  rw [State.symbol, h.symbols]
  exact symbol_push s x

theorem current (h : s.Takes s' x) : s'.current = x := by
  rw [State.current, h.token, h.symbol_new]

end Takes

theorem ahead_eq_cons (h : s.ahead = l :: ls) : ∃ l₀ ls₀, l₀.unplaced = l ∧
    s.pending.dropWhile Lexeme.isComment = l₀ :: ls₀ ∧
      (ls₀.filter fun l => !l.isComment).map Lexeme.unplaced = ls := by
  rw [ahead, filter_eq_of_dropWhile] at h
  cases hnext : s.pending.dropWhile Lexeme.isComment with
  | nil =>
    rw [hnext] at h
    cases h
  | cons l₀ ls₀ =>
    rw [hnext] at h
    obtain ⟨hl, hls⟩ := List.cons.inj h
    exact ⟨l₀, ls₀, hl, rfl, hls⟩

theorem dropWhile_of_ahead_eq_nil (h : s.ahead = []) :
    s.pending.dropWhile Lexeme.isComment = [] := by
  rw [ahead, filter_eq_of_dropWhile] at h
  cases hnext : s.pending.dropWhile Lexeme.isComment with
  | nil => rfl
  | cons l₀ ls₀ =>
    rw [hnext] at h
    cases h

/-- A lexeme that has a prototype is taken. -/
theorem takes_lexeme (h : s.ahead = l :: ls) {p : Prototype} (hp : s.prototype? t l = some p) :
    ∃ l₀, l₀.unplaced = l ∧ s.Takes (s.advance t) (s.madeOf p l₀) ∧ (s.advance t).ahead = ls ∧
      (s.advance t).endSymbol? = s.endSymbol? := by
  obtain ⟨l₀, ls₀, rfl, hnext, rfl⟩ := ahead_eq_cons h
  refine ⟨l₀, rfl, ?_⟩
  rw [advance_eq_push hnext (p := p) hp]
  exact ⟨⟨rfl, rfl, rfl, rfl, rfl, rfl⟩, rfl, rfl⟩

/-- A lexeme that has no prototype is remarked. -/
theorem not_clean_of_unknown (h : s.ahead = l :: ls) (hp : s.prototype? t l = none) :
    ¬(s.advance t).Clean := by
  obtain ⟨l₀, ls₀, rfl, hnext, -⟩ := ahead_eq_cons h
  rw [advance_eq_unknown hnext hp]
  intro hclean
  have hremarks : (s.diagnostics.report ((Problem.unknownOperator l₀.text).diagnosticAt
    l₀.span)).toList = [] := hclean
  rw [Diagnostics.toList_report] at hremarks
  exact List.append_ne_nil_of_right_ne_nil _ (List.cons_ne_nil _ _) hremarks

theorem takes_end (h : s.ahead = []) (he : s.endSymbol? = none) :
    s.Takes (s.advance t) (s.endSymbolOf t) ∧ (s.advance t).ahead = [] ∧
      (s.advance t).endSymbol? = some s.symbols.size := by
  rw [advance_eq_end he (dropWhile_of_ahead_eq_nil h)]
  exact ⟨⟨rfl, rfl, rfl, rfl, rfl, rfl⟩, rfl, rfl⟩

/-! ## Prototypes -/

/-- The prototype that a word has by itself. -/
def wordPrototype (text : String) : Prototype :=
  (cStructs.get? text).getD (cStructs.prototype nameId)

/-- A spelling that the table does not have is not that of the keyword `struct`. -/
theorem ne_structKeyword {text : String} (h : cStructs.get? text = none) :
    text ≠ structKeyword := by
  rintro rfl
  have hsome : (cStructs.get? structKeyword).isSome = true := by decide
  rw [h] at hsome
  cases hsome

/-- What a word means in the innermost of the scopes that defines it. -/
def meaning (s : State) (scopes : List ScopeId) (text : String) : Prototype :=
  ((scopes.findSome? fun c => (s.scopeAt c).get? text).map fun id =>
    (s.symbol id).toPrototype).getD (wordPrototype text)

theorem resolve_eq_meaning (s : State) (text : String) :
    s.resolve cStructs text = s.meaning (s.scope :: s.outer) text := by
  unfold resolve meaning State.find? wordPrototype
  cases (s.scope :: s.outer).findSome? fun c => (s.scopeAt c).get? text <;> rfl

theorem meaning_cons_of_some {c : ScopeId} {cs : List ScopeId} {text : String} {id : SymbolId}
    (h : (s.scopeAt c).get? text = some id) :
    s.meaning (c :: cs) text = (s.symbol id).toPrototype := by
  rw [meaning, List.findSome?_cons, h]
  rfl

theorem meaning_cons_of_none {c : ScopeId} {cs : List ScopeId} {text : String}
    (h : (s.scopeAt c).get? text = none) : s.meaning (c :: cs) text = s.meaning cs text := by
  rw [meaning, List.findSome?_cons, h]
  rfl

end State

/-- A number is an operand, and any other symbol has the prototype of its spelling, except that it
may be a declared name. -/
structure Typical (x : Symbol) : Prop where
  role : x.role = .ofDeclared ∨ x.kind ≠ .literal ∧ x.role = (wordPrototype x.value).role
  id : x.kind ≠ .literal → x.id = (wordPrototype x.value).id

namespace Typical

variable {x : Symbol} {text : String} {id : SymbolId}

/-- What starts a statement is a keyword, with the prototype that the table has for it. -/
theorem of_std (h : Typical x) {std : StatementDenotation} (hstd : x.role.std = some std) :
    x.kind ≠ .literal ∧ x.id = (wordPrototype x.value).id ∧
      x.role = (wordPrototype x.value).role := by
  rcases h.role with hrole | ⟨hkind, hrole⟩
  · rw [hrole] at hstd
    cases hstd
  · exact ⟨hkind, h.id hkind, hrole⟩

/-- A spelling that the table does not have is an operand. -/
theorem role_of_get? (h : Typical x) (hget : cStructs.get? x.value = none) :
    x.role = .ofDeclared := by
  rcases h.role with hrole | ⟨-, hrole⟩
  · exact hrole
  · rw [hrole, wordPrototype, hget]
    decide

/-- No symbol of a C source binds as an operator does. -/
theorem plain (h : Typical x) :
    x.role.bindingPower = 0 ∧ x.role.nud ≠ some .prefixed := by
  rcases h.role with hrole | ⟨-, hrole⟩
  · rw [hrole]
    decide
  · rw [hrole, wordPrototype]
    cases hget : cStructs.get? x.value with
    | none => decide
    | some p =>
      exact SymbolTable.role_of_get? (R := fun _ role => role.bindingPower = 0 ∧
        role.nud ≠ some .prefixed) (by decide) hget

end Typical

namespace State

/-- Names stand for words that are spelled like them, and all symbols are typical. -/
structure Sensible (s : State) : Prop where
  bound : ∀ c name id, (s.scopeAt c).get? name = some id →
    id < s.symbols.size ∧ (s.symbol id).value = name ∧ (s.symbol id).kind ≠ .literal
  typical : ∀ id < s.symbols.size, Typical (s.symbol id)

namespace Sensible

theorem meaning (h : s.Sensible) (scopes : List ScopeId) (text : String) :
    (s.meaning scopes text).id = (wordPrototype text).id ∧
      ((s.meaning scopes text).role = (wordPrototype text).role ∨
        (s.meaning scopes text).role = .ofDeclared) := by
  unfold State.meaning
  cases hfound : scopes.findSome? fun c => (s.scopeAt c).get? text with
  | none => exact ⟨rfl, .inl rfl⟩
  | some id =>
    obtain ⟨c, -, hc⟩ := List.exists_of_findSome?_eq_some hfound
    obtain ⟨hid, hvalue, hkind⟩ := h.bound c text id hc
    have htypical := h.typical id hid
    subst hvalue
    exact ⟨htypical.id hkind, htypical.role.symm.imp_left And.right⟩

/-- What is made of a lexeme is typical. -/
theorem typical_madeOf (h : s.Sensible) {p : Prototype} (hp : s.prototype? cStructs l = some p) :
    Typical (s.madeOf p l) := by
  have hword (hkind : kindOf l.kind ≠ .literal) (heq : s.resolve cStructs l.text = p) :
      Typical (s.madeOf p l) := by
    obtain ⟨hid, hrole⟩ := h.meaning (s.scope :: s.outer) l.text
    rw [← resolve_eq_meaning, heq] at hid hrole
    exact ⟨hrole.symm.imp_right fun hrole => ⟨hkind, hrole⟩, fun _ => hid⟩
  -- operators and comments look like their entry in the table, whatever is declared
  have htable (hkind : kindOf l.kind ≠ .literal) (hget : cStructs.get? l.text = some p) :
      Typical (s.madeOf p l) := by
    have hsame : wordPrototype l.text = p := by rw [wordPrototype, hget, Option.getD_some]
    exact ⟨.inr ⟨hkind, congrArg Prototype.role hsame.symm⟩,
      fun _ => congrArg Prototype.id hsame.symm⟩
  unfold State.prototype? at hp
  cases hkind : l.kind with
  | name =>
    rw [hkind] at hp
    exact hword (by rw [hkind]; decide) (Option.some.inj hp)
  | type =>
    rw [hkind] at hp
    exact hword (by rw [hkind]; decide) (Option.some.inj hp)
  | number =>
    rw [hkind] at hp
    have hliteral : (cStructs.prototype literalId).role = .ofDeclared := by decide
    refine ⟨.inl ?_, fun hne => absurd (congrArg kindOf hkind) hne⟩
    rw [← hliteral, Option.some.inj hp]
    rfl
  | operator =>
    rw [hkind] at hp
    exact htable (by rw [hkind]; decide) hp
  | comment =>
    rw [hkind] at hp
    exact htable (by rw [hkind]; decide) hp

theorem typical_end (s : State) : Typical (s.endSymbolOf cStructs) := by
  have hend : cStructs.prototype endId = wordPrototype endId := by decide
  exact ⟨.inr ⟨SymbolKind.noConfusion, congrArg Prototype.role hend⟩,
    fun _ => congrArg Prototype.id hend⟩

theorem takes (h : s.Sensible) {x : Symbol} (htakes : s.Takes s' x) (hx : Typical x) :
    s'.Sensible := by
  refine ⟨fun c name id hid => ?_, fun id hid => ?_⟩
  · rw [htakes.scopeAt] at hid
    obtain ⟨hlt, hbound⟩ := h.bound c name id hid
    rw [htakes.symbol_of_lt hlt, htakes.size]
    exact ⟨Nat.lt_succ_of_lt hlt, hbound⟩
  · rw [htakes.size] at hid
    rcases Nat.lt_succ_iff_lt_or_eq.1 hid with hlt | rfl
    · rw [htakes.symbol_of_lt hlt]
      exact h.typical id hlt
    · rw [htakes.symbol_new]
      exact hx

/-- Before the end of the source, what is read without a remark is typical. -/
theorem advance (h : s.Sensible) (hend : s.endSymbol? = none)
    (hclean : (s.advance cStructs).Clean) :
    (s.advance cStructs).Sensible ∧ (s.advance cStructs).symbols.size = s.symbols.size + 1 := by
  cases hs : s.ahead with
  | nil =>
    obtain ⟨htakes, -, -⟩ := takes_end (t := cStructs) hs hend
    exact ⟨h.takes htakes (typical_end s), htakes.size⟩
  | cons l ls =>
    cases hp : s.prototype? cStructs l with
    | none => exact absurd hclean (not_clean_of_unknown hs hp)
    | some p =>
      obtain ⟨l₀, rfl, htakes, -, -⟩ := takes_lexeme hs hp
      exact ⟨h.takes htakes (h.typical_madeOf (l := l₀) hp), htakes.size⟩

theorem modifySymbol (h : s.Sensible) (id : SymbolId) {f : Symbol → Symbol}
    (hvalue : (f (s.symbol id)).value = (s.symbol id).value)
    (hkind : (s.symbol id).kind ≠ .literal → (f (s.symbol id)).kind ≠ .literal)
    (hf : Typical (s.symbol id) → Typical (f (s.symbol id))) : (s.modifySymbol id f).Sensible := by
  have hsize : (s.modifySymbol id f).symbols.size = s.symbols.size := Array.size_modify
  refine ⟨fun c name i hi => ?_, fun i hi => ?_⟩
  · obtain ⟨hlt, hbound, hword⟩ := h.bound c name i hi
    rw [hsize, symbol_modifySymbol]
    split
    · rename_i heq
      obtain ⟨rfl, -⟩ := heq
      exact ⟨hlt, hvalue.trans hbound, hkind hword⟩
    · exact ⟨hlt, hbound, hword⟩
  · rw [hsize] at hi
    rw [symbol_modifySymbol]
    split
    · rename_i heq
      obtain ⟨rfl, -⟩ := heq
      exact hf (h.typical i hi)
    · exact h.typical i hi

theorem bind (h : s.Sensible) {id : SymbolId} (hid : id < s.symbols.size)
    (hkind : (s.symbol id).kind ≠ .literal) : (s.bind (s.symbol id).value id).Sensible := by
  refine ⟨fun c name i hi => ?_, h.typical⟩
  rcases entry_bind hi with ⟨rfl, rfl⟩ | hold
  · exact ⟨hid, rfl, hkind⟩
  · exact h.bound c name i hold

end Sensible

end State

end CStruct.Parse
