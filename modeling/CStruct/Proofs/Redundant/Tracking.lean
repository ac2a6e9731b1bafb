import CStruct.Proofs.Redundant.Taking

/-!
# A reading that tracks another

A source is read, and the same source with a forward declaration of `n` put before its symbol `k`.
From the symbol `k` on, the symbols of the second reading are three further on than those of the
first, and otherwise they are alike. The scopes are the same as well, with two exceptions in the
outermost one: the keyword `struct` may have been reserved earlier, and while the struct `n` is not
defined, its entry may be the forward declaration that was put in, whatever declares it ahead in the
first reading.
-/

namespace CStruct

/-- The number of a symbol once three more have been put before the symbol `k`. -/
def moved (k id : Nat) : Nat := if id < k then id else id + 3

theorem moved_of_lt {k id : Nat} (h : id < k) : moved k id = id := if_pos h

theorem moved_of_le {k id : Nat} (h : k ≤ id) : moved k id = id + 3 := if_neg (Nat.not_lt_of_le h)

theorem moved_injective (k : Nat) : Function.Injective (moved k) := by
  intro i j h
  unfold moved at h
  split at h <;> split at h <;> omega

/-- The symbols that were put in are not among those that were moved. -/
theorem moved_ne_put (k id : Nat) : moved k id ≠ k + 1 := by
  unfold moved
  split <;> omega

/-- What is known of a declared name, with the symbols moved. -/
def Declaration.moved (k : Nat) (d : Declaration) : Declaration :=
  { d with
    declaredType := CStruct.moved k d.declaredType
    dimension? := d.dimension?.map (CStruct.moved k)
    alias? := d.alias?.map (CStruct.moved k) }

namespace Parse

open SymbolTable State

/-- The symbols are made from the same prototype and spelled alike. -/
structure Similar (x x' : Symbol) : Prop where
  id : x'.id = x.id
  role : x'.role = x.role
  value : x'.value = x.value
  kind : x'.kind = x.kind

/-- The symbols are the same but for the numbers of others. -/
structure Matches (k : Nat) (x x' : Symbol) : Prop extends Similar x x' where
  reserved : x'.reserved = x.reserved
  declaration? : x'.declaration? = x.declaration?.map (Declaration.moved k)

/-- A forward declaration. -/
def forwardLexemes (n : String) : List Lexeme :=
  [⟨.name, structKeyword, {}⟩, ⟨.name, n, {}⟩, ⟨.operator, ";", {}⟩]

namespace State

/-- The name stands for the same symbol in both states. -/
structure SameEntry (k : Nat) (s s' : State) (c : ScopeId) (name : String) : Prop where
  entry : (s'.scopeAt c).get? name = ((s.scopeAt c).get? name).map (moved k)
  matching : ∀ id, (s.scopeAt c).get? name = some id →
    Matches k (s.symbol id) (s'.symbol (moved k id))

theorem SameEntry.get?_moved {k : Nat} {s s' : State} {c : ScopeId} {name : String} {id : SymbolId}
    (h : SameEntry k s s' c name) (hid : (s.scopeAt c).get? name = some id) :
    (s'.scopeAt c).get? name = some (moved k id) := by
  rw [h.entry, hid]
  rfl

/-- The symbol is the keyword `struct`, reserved. -/
structure KeywordAt (s : State) (id : SymbolId) : Prop where
  lt : id < s.symbols.size
  prototype : (s.symbol id).toPrototype =
    { id := structKeyword, role := { std := some .struct }, reserved := true }
  undeclared : s.Undeclared id

/-- Where the keyword `struct` has been reserved at all. -/
structure Keywords (s s' : State) : Prop where
  left : ∀ id, (s.scopeAt 0).get? structKeyword = some id → s.KeywordAt id
  right : ∀ id, (s'.scopeAt 0).get? structKeyword = some id → s'.KeywordAt id
  isSome : ((s.scopeAt 0).get? structKeyword).isSome = true →
    ((s'.scopeAt 0).get? structKeyword).isSome = true

/-- The symbol is a name that has been declared as a struct ahead of its body. -/
structure Ahead (s : State) (id : SymbolId) : Prop where
  lt : id < s.symbols.size
  forward : s.Forward id
  prototype : (s.symbol id).toPrototype = { id := nameId, role := .ofDeclared }

/-- Either what was put in makes no difference to what `n` stands for, or `n` has no body yet. -/
def Own (k : Nat) (n : String) (s s' : State) : Prop :=
  (SameEntry k s s' 0 n ∧ ∀ id, (s.scopeAt 0).get? n = some id → s.isStruct id = true) ∨
    ((s'.scopeAt 0).get? n = some (k + 1) ∧ s'.Ahead (k + 1) ∧
      ∀ id, (s.scopeAt 0).get? n = some id → s.Ahead id)

/-- Either the forward declaration is still ahead, or it has been read. -/
inductive Phase (k : Nat) (n : String) (s s' : State) : Prop
  | before {a c : List Lexeme} (hahead : s.ahead = a ++ c)
    (hahead' : s'.ahead = a ++ (forwardLexemes n ++ c)) (hk : s.symbols.size + a.length = k)
    (hsize : s'.symbols.size = s.symbols.size) (hend : s.endSymbol? = none)
    (hend' : s'.endSymbol? = none)
  | after (hle : k ≤ s.symbols.size) (hsize : s'.symbols.size = s.symbols.size + 3)
    (hahead : s'.ahead = s.ahead) (hend : s'.endSymbol? = s.endSymbol?.map (moved k))

namespace Phase

variable {k : Nat} {n : String} {s s' s₁ s₁' : State}

theorem of_eq (h : Phase k n s s') (size : s₁.symbols.size = s.symbols.size)
    (size' : s₁'.symbols.size = s'.symbols.size) (pending : s₁.pending = s.pending)
    (pending' : s₁'.pending = s'.pending) (endSymbol : s₁.endSymbol? = s.endSymbol?)
    (endSymbol' : s₁'.endSymbol? = s'.endSymbol?) : Phase k n s₁ s₁' := by
  have hahead : s₁.ahead = s.ahead := by rw [ahead, pending, ahead]
  have hahead' : s₁'.ahead = s'.ahead := by rw [ahead, pending', ahead]
  cases h with
  | before h₁ h₂ h₃ h₄ h₅ h₆ =>
    exact .before (hahead.trans h₁) (hahead'.trans h₂) (by rw [size]; exact h₃)
      (by rw [size, size']; exact h₄) (endSymbol.trans h₅) (endSymbol'.trans h₆)
  | after h₁ h₂ h₃ h₄ =>
    refine .after (by rw [size]; exact h₁) (by rw [size, size']; exact h₂) ?_ ?_
    · rw [hahead, hahead', h₃]
    · rw [endSymbol, endSymbol', h₄]

theorem moved_lt (h : Phase k n s s') {id : SymbolId} (hid : id < s.symbols.size) :
    moved k id < s'.symbols.size := by
  cases h with
  | before _ _ hk hsize =>
    rw [moved_of_lt (Nat.lt_of_lt_of_le hid (hk ▸ Nat.le_add_right _ _)), hsize]
    exact hid
  | after hle hsize =>
    rw [hsize]
    unfold moved
    split
    · exact Nat.lt_add_right 3 hid
    · exact Nat.add_lt_add_right hid 3

theorem le_moved (h : Phase k n s s') {id : SymbolId} (hid : s.symbols.size ≤ id) :
    s'.symbols.size ≤ moved k id := by
  have hle : id ≤ moved k id := by
    unfold moved
    split
    · exact Nat.le_refl id
    · exact Nat.le_add_right id 3
  cases h with
  | before _ _ _ hsize => exact hsize ▸ Nat.le_trans hid hle
  | after hk hsize =>
    rw [hsize, moved_of_le (Nat.le_trans hk hid)]
    exact Nat.add_le_add_right hid 3

theorem endSymbol?_eq_none (h : Phase k n s s') (he : s.endSymbol? = none) :
    s'.endSymbol? = none := by
  cases h with
  | before _ _ _ _ _ he' => exact he'
  | after _ _ _ hend => rw [hend, he, Option.map_none]

end Phase

/-- The second state is that of the reading with the forward declaration put in. -/
structure Tracks (k : Nat) (n : String) (s s' : State) : Prop where
  phase : Phase k n s s'
  clean : s'.Clean
  scope : s'.scope = s.scope
  outer : s'.outer = s.outer
  scopes : s'.scopes.size = s.scopes.size
  scope_lt : s.scope < s.scopes.size
  chain : ∃ inner, s.scope :: s.outer = inner ++ [0] ∧ 0 ∉ inner
  sensible : s.Sensible
  similar : ∀ id < s.symbols.size, Similar (s.symbol id) (s'.symbol (moved k id))
  order : ∀ c ≠ 0, (s'.scopeAt c).definitions.entries =
    (s.scopeAt c).definitions.entries.map (Prod.map id (moved k))
  same : ∀ c name, (c = 0 → name ≠ n ∧ name ≠ structKeyword) → SameEntry k s s' c name
  keywords : Keywords s s'
  own : Own k n s s'

/-- No name stands for the symbol, and it has not been declared. -/
structure Loose (s : State) (id : SymbolId) : Prop where
  unbound : ∀ c name, (s.scopeAt c).get? name ≠ some id
  undeclared : s.Undeclared id

/-- A symbol that is loose in both readings. -/
structure Spare (k : Nat) (s s' : State) (id : SymbolId) : Prop where
  lt : id < s.symbols.size
  left : s.Loose id
  right : s'.Loose (moved k id)

/-- Both readings have come to the same token. -/
structure Abreast (k : Nat) (n : String) (s s' : State) : Prop extends Tracks k n s s' where
  token : s'.token = moved k s.token
  newest : s.symbols.size = s.token + 1
  newest' : s'.symbols.size = s'.token + 1
  spare : Spare k s s' s.token
  ended : s.endSymbol? ≠ none →
    s.current.toPrototype = cStructs.prototype endId ∧ s.current.kind = .endOfInput

/-- In the outermost scope, the keyword `struct` means what the table says. -/
theorem meaning_structKeyword {s : State}
    (hroot : ∀ id, (s.scopeAt 0).get? structKeyword = some id → s.KeywordAt id) :
    (s.meaning [0] structKeyword).id = structKeyword ∧
      (s.meaning [0] structKeyword).role = { std := some .struct } := by
  cases hid : (s.scopeAt 0).get? structKeyword with
  | none =>
    have hword : wordPrototype structKeyword =
        { id := structKeyword, role := { std := some .struct } } := by decide
    rw [meaning_cons_of_none hid]
    show (wordPrototype structKeyword).id = _ ∧ (wordPrototype structKeyword).role = _
    rw [hword]
    exact ⟨rfl, rfl⟩
  | some id =>
    rw [meaning_cons_of_some hid, (hroot id hid).prototype]
    exact ⟨rfl, rfl⟩

/-- Where a spelling means the same, a lexeme has the same prototype. -/
theorem prototype?_congr {t : SymbolTable} {s s' : State} {l : Lexeme}
    (hid : (s'.resolve t l.text).id = (s.resolve t l.text).id)
    (hrole : (s'.resolve t l.text).role = (s.resolve t l.text).role) :
    (s'.prototype? t l).map (fun p => (p.id, p.role)) =
      (s.prototype? t l).map fun p => (p.id, p.role) := by
  unfold State.prototype?
  split
  · exact congrArg some (Prod.ext hid hrole)
  · exact congrArg some (Prod.ext hid hrole)
  all_goals rfl

/-! ## What both readings see -/

namespace Tracks

variable {k : Nat} {n : String} {s s' : State} (h : Tracks k n s s')
include h

theorem entry_lt' {c : ScopeId} {name : String} {id : SymbolId}
    (hid : (s'.scopeAt c).get? name = some id) : id < s'.symbols.size := by
  by_cases hsame : c = 0 → name ≠ n ∧ name ≠ structKeyword
  · rw [(h.same c name hsame).entry] at hid
    obtain ⟨i, hi, rfl⟩ := Option.map_eq_some_iff.1 hid
    exact h.phase.moved_lt (h.sensible.bound c name i hi).1
  · obtain ⟨rfl, hname⟩ := Classical.not_imp.1 hsame
    by_cases hn : name = n
    · subst hn
      rcases h.own with ⟨hown, -⟩ | ⟨hput, hahead, -⟩
      · rw [hown.entry] at hid
        obtain ⟨i, hi, rfl⟩ := Option.map_eq_some_iff.1 hid
        exact h.phase.moved_lt (h.sensible.bound 0 name i hi).1
      · cases hput.symm.trans hid
        exact hahead.lt
    · have hkeyword : name = structKeyword := by
        by_contra hkeyword
        exact hname ⟨hn, hkeyword⟩
      subst hkeyword
      exact (h.keywords.right id hid).lt

theorem scope_lt' : s'.scope < s'.scopes.size := by
  rw [h.scope, h.scopes]
  exact h.scope_lt

theorem value (id : SymbolId) : (s'.symbol (moved k id)).value = (s.symbol id).value := by
  by_cases hid : id < s.symbols.size
  · exact (h.similar id hid).value
  · rw [symbol_of_size_le (h.phase.le_moved (Nat.le_of_not_lt hid)),
      symbol_of_size_le (Nat.le_of_not_lt hid)]

theorem isStructKeyword (id : SymbolId) :
    s'.isStructKeyword (moved k id) = s.isStructKeyword id := by
  rw [State.isStructKeyword, h.value, State.isStructKeyword]

theorem isGlobal : s'.isGlobal = s.isGlobal := by
  rw [State.isGlobal, h.outer, State.isGlobal]

/-- Outside all structs, and nowhere else, the outermost scope is open. -/
theorem isGlobal_iff : s.isGlobal = true ↔ s.scope = 0 := by
  obtain ⟨inner, hchain, hinner⟩ := h.chain
  rw [State.isGlobal, List.isEmpty_iff]
  cases inner with
  | nil =>
    obtain ⟨hscope, houter⟩ := List.cons.inj hchain
    exact iff_of_true houter hscope
  | cons c inner =>
    obtain ⟨hscope, houter⟩ := List.cons.inj hchain
    refine iff_of_false ?_ ?_
    · rw [houter]
      exact List.append_ne_nil_of_right_ne_nil _ (List.cons_ne_nil _ _)
    · rw [hscope]
      exact fun hc => hinner (hc ▸ List.mem_cons_self)

theorem isStruct {id : SymbolId} (hid : Matches k (s.symbol id) (s'.symbol (moved k id))) :
    s'.isStruct (moved k id) = s.isStruct id := by
  rw [State.isStruct, State.isStruct, Symbol.isDeclaration, Symbol.isDeclaration, hid.kind,
    Symbol.declaredType?, Symbol.declaredType?, hid.declaration?]
  cases (s.symbol id).declaration? with
  | none => rfl
  | some d =>
    show (_ && s'.isStructKeyword (moved k d.declaredType)) =
      (_ && s.isStructKeyword d.declaredType)
    rw [h.isStructKeyword]
    rfl

theorem completesForward {id : SymbolId} (type : SymbolId)
    (hid : Matches k (s.symbol id) (s'.symbol (moved k id))) :
    s'.completesForward (moved k id) (moved k type) = s.completesForward id type := by
  have hinner : (s'.symbol (moved k id)).innerScope? = (s.symbol id).innerScope? := by
    rw [Symbol.innerScope?, hid.declaration?, Symbol.innerScope?]
    cases (s.symbol id).declaration? <;> rfl
  have halias : (s'.symbol (moved k id)).isAlias = (s.symbol id).isAlias := by
    rw [Symbol.isAlias, hid.declaration?, Symbol.isAlias]
    cases (s.symbol id).declaration? <;> rfl
  rw [State.completesForward, h.isStruct hid, hinner, halias, h.isStructKeyword,
    State.completesForward]

/-! ### The meaning of words -/

/-- In the outermost scope, a word means the same in both readings. -/
theorem meaning_root (hn : cStructs.get? n = none) (text : String) :
    (s'.meaning [0] text).id = (s.meaning [0] text).id ∧
      (s'.meaning [0] text).role = (s.meaning [0] text).role := by
  by_cases hname : text = n
  · subst hname
    rcases h.own with ⟨hsame, -⟩ | ⟨hput, hahead', hahead⟩
    · cases hid : (s.scopeAt 0).get? text with
      | none =>
        rw [meaning_cons_of_none hid, meaning_cons_of_none (by rw [hsame.entry, hid]; rfl)]
        exact ⟨rfl, rfl⟩
      | some id =>
        have hmatches := hsame.matching id hid
        rw [meaning_cons_of_some hid,
          meaning_cons_of_some (hsame.get?_moved hid)]
        exact ⟨hmatches.id, hmatches.role⟩
    · -- a name that has been declared ahead has the prototype of names
      have hleft : s.meaning [0] text = { id := nameId, role := .ofDeclared } := by
        cases hid : (s.scopeAt 0).get? text with
        | none =>
          rw [meaning_cons_of_none hid]
          show wordPrototype text = _
          rw [wordPrototype, hn]
          decide
        | some id =>
          rw [meaning_cons_of_some hid]
          exact (hahead id hid).prototype
      rw [meaning_cons_of_some hput, hahead'.prototype, hleft]
      exact ⟨rfl, rfl⟩
  · by_cases hkeyword : text = structKeyword
    · subst hkeyword
      obtain ⟨hid, hrole⟩ := meaning_structKeyword h.keywords.left
      obtain ⟨hid', hrole'⟩ := meaning_structKeyword h.keywords.right
      exact ⟨hid'.trans hid.symm, hrole'.trans hrole.symm⟩
    · have hsame := h.same 0 text fun _ => ⟨hname, hkeyword⟩
      cases hid : (s.scopeAt 0).get? text with
      | none =>
        rw [meaning_cons_of_none hid, meaning_cons_of_none (by rw [hsame.entry, hid]; rfl)]
        exact ⟨rfl, rfl⟩
      | some id =>
        have hmatches := hsame.matching id hid
        rw [meaning_cons_of_some hid,
          meaning_cons_of_some (hsame.get?_moved hid)]
        exact ⟨hmatches.id, hmatches.role⟩

/-- Where the outermost scope is open, there is none around it. -/
theorem outer_eq_nil (hscope : s.scope = 0) : s.outer = [] :=
  List.isEmpty_iff.1 (h.isGlobal_iff.2 hscope)

theorem meaning (hn : cStructs.get? n = none) (text : String) :
    (s'.meaning (s'.scope :: s'.outer) text).id = (s.meaning (s.scope :: s.outer) text).id ∧
      (s'.meaning (s'.scope :: s'.outer) text).role =
        (s.meaning (s.scope :: s.outer) text).role := by
  obtain ⟨inner, hchain, hinner⟩ := h.chain
  rw [h.scope, h.outer, hchain]
  clear hchain
  induction inner with
  | nil => exact h.meaning_root hn text
  | cons c inner ih =>
    have hc : c ≠ 0 := fun hc => hinner (hc ▸ List.mem_cons_self)
    have hsame := h.same c text fun hzero => absurd hzero hc
    rw [List.cons_append]
    cases hid : (s.scopeAt c).get? text with
    | none =>
      rw [meaning_cons_of_none hid, meaning_cons_of_none (by rw [hsame.entry, hid]; rfl)]
      exact ih fun hmem => hinner (List.mem_cons_of_mem c hmem)
    | some id =>
      have hmatches := hsame.matching id hid
      rw [meaning_cons_of_some hid,
        meaning_cons_of_some (hsame.get?_moved hid)]
      exact ⟨hmatches.id, hmatches.role⟩

/-- A lexeme has a prototype in both readings or in neither. -/
theorem prototype? (hn : cStructs.get? n = none) (l : Lexeme) :
    (s'.prototype? cStructs l).map (fun p => (p.id, p.role)) =
      (s.prototype? cStructs l).map fun p => (p.id, p.role) := by
  obtain ⟨hid, hrole⟩ := h.meaning hn l.text
  rw [← resolve_eq_meaning, ← resolve_eq_meaning] at hid hrole
  exact prototype?_congr hid hrole

end Tracks

end State

end Parse

end CStruct
