import CStruct.Proofs.Declared.Made

/-!
# Scopes and what stands in them

Every entry of a scope is a name that was declared there or a keyword. The scopes form a tree: each
but the first was opened inside one that was there before. The body of a struct is a scope of its
own, right inside the scope in which the struct was declared. While a body is open, no struct has
it.
-/

namespace CStruct.Parse

open SymbolTable State

variable {s s' : State} {d e id : SymbolId} {k : ScopeId} {name : String}

namespace State

/-! ## Entries -/

/-- An entry of a scope is spelled like its name; it was declared in that scope or is reserved. -/
structure Entered (s : State) (k : ScopeId) (name : String) (id : SymbolId) : Prop where
  value : (s.symbol id).value = name
  meaning : (s.symbol id).kind = .name ∧ (s.symbol id).scope? = some k ∧ ¬s.Undeclared id ∨
    (s.symbol id).reserved = true ∧ s.Undeclared id

def Indexed (s : State) : Prop :=
  ∀ k name id, (s.scopeAt k).get? name = some id → s.Entered k name id

theorem Entered.of_symbol_eq (h : s.Entered k name id) (hid : s'.symbol id = s.symbol id) :
    s'.Entered k name id := by
  obtain ⟨hvalue, hmeaning⟩ := h
  unfold Undeclared at hmeaning
  rw [← hid] at hvalue hmeaning
  exact ⟨hvalue, hmeaning⟩

theorem Indexed.of_entered (h : s.Indexed) (scopes : s'.scopes = s.scopes)
    (hid : ∀ k name id, (s.scopeAt k).get? name = some id → s.Entered k name id →
      s'.Entered k name id) : s'.Indexed := by
  intro k name id hk
  rw [scopeAt, scopes] at hk
  exact hid k name id hk (h k name id hk)

theorem Indexed.of_idle (h : s.Indexed) (hs : s.Steady) (hidle : Idle s.token s s') :
    s'.Indexed := by
  intro k name id hk
  rcases hidle.entry k name id hk with hold | ⟨-, hreserved⟩
  · exact (h k name id hold).of_symbol_eq
      (hidle.symbol_of_lt hs.bounds (hs.entry_lt k name id hold))
  · exact ⟨hreserved.value, .inr ⟨hreserved.reserved, hreserved.undeclared⟩⟩

theorem Indexed.bind (h : s.Indexed) (hid : s.Entered s.scope name id) :
    (s.bind name id).Indexed := by
  intro k other i hk
  rw [scopeAt_bind] at hk
  -- only the open scope has got an entry, and only under the name
  split at hk
  · rename_i hopen
    rw [Scope.get?, Scope.insert, Dictionary.get?_insert] at hk
    split at hk
    · rename_i hother
      cases hk
      rw [hopen.1, hother]
      exact hid.of_symbol_eq rfl
    · exact (h k other i hk).of_symbol_eq rfl
  · exact (h k other i hk).of_symbol_eq rfl

theorem Indexed.openScope (h : s.Indexed) : s.openScope.Indexed := by
  intro k name id hk
  rw [scopeAt_openScope] at hk
  split at hk
  · cases hk
  · exact (h k name id hk).of_symbol_eq rfl

theorem Indexed.closeScope (h : s.Indexed) : s.closeScope.Indexed := by
  unfold State.closeScope
  split
  · exact h
  · exact h.of_entered rfl fun _ _ _ _ hid => hid.of_symbol_eq rfl

/-- A name is declared that no scope has an entry for yet. -/
theorem Indexed.declare (h : s.Indexed) (type : SymbolId)
    (hnew : ∀ k name, (s.scopeAt k).get? name ≠ some d) : (s.declare d type).Indexed := by
  refine h.of_entered ?_ fun k name id hk hid => ?_
  · rfl
  refine hid.of_symbol_eq (symbol_modifySymbol_of_ne ?_)
  rintro rfl
  exact hnew k name hk

/-- Knowing more of a name does not touch its entry. -/
theorem Indexed.modifyDeclaration (h : s.Indexed) (d : SymbolId) (f : Declaration → Declaration) :
    (s.modifyDeclaration d f).Indexed := by
  refine h.of_entered ?_ fun k name id _ hid => ?_
  · rfl
  have hsymbol := symbol_modifyDeclaration s d f id
  split at hsymbol
  · refine ⟨by rw [hsymbol]; exact hid.value, ?_⟩
    have hsame : (s.modifyDeclaration d f).Undeclared id ↔ s.Undeclared id := by
      rw [Undeclared, hsymbol]
      exact Option.map_eq_none_iff
    rw [hsame, hsymbol]
    exact hid.meaning
  · exact hid.of_symbol_eq hsymbol

/-! ## The tree of scopes -/

/-- The scopes form a tree, and the bodies of structs are scopes of their own in it. -/
structure Nested (s : State) : Prop where
  root : (s.scopeAt 0).parent? = none
  parent? : ∀ k, 0 < k → k < s.scopes.size → ∃ p < k, (s.scopeAt k).parent? = some p
  open_lt : ∀ k ∈ s.scope :: s.outer, k < s.scopes.size
  body : ∀ d k, (s.symbol d).innerScope? = some k → 0 < k ∧ k < s.scopes.size ∧
    (s.scopeAt k).parent? = (s.symbol d).scope?
  unique : ∀ d e k, (s.symbol d).innerScope? = some k → (s.symbol e).innerScope? = some k → d = e
  unowned : ∀ k ∈ s.scope :: s.outer, ∀ d, (s.symbol d).innerScope? ≠ some k

namespace Nested

/-- A change that gives no struct a body and leaves the tree alone. -/
theorem of_innerScope? (h : s.Nested) (hsize : s'.scopes.size = s.scopes.size)
    (hparent : ∀ k < s.scopes.size, (s'.scopeAt k).parent? = (s.scopeAt k).parent?)
    (hopen : ∀ k ∈ s'.scope :: s'.outer, k ∈ s.scope :: s.outer)
    (hbody : ∀ d k, (s'.symbol d).innerScope? = some k →
      (s.symbol d).innerScope? = some k ∧ (s'.symbol d).scope? = (s.symbol d).scope?) :
    s'.Nested where
  root := by
    rw [hparent 0 (Nat.zero_lt_of_lt (h.open_lt s.scope List.mem_cons_self))]
    exact h.root
  parent? := fun k hk hlt => by
    rw [hsize] at hlt
    rw [hparent k hlt]
    exact h.parent? k hk hlt
  open_lt := fun k hk => by
    rw [hsize]
    exact h.open_lt k (hopen k hk)
  body := fun d k hd => by
    obtain ⟨hd, hscope⟩ := hbody d k hd
    obtain ⟨hk, hlt, heq⟩ := h.body d k hd
    refine ⟨hk, by rw [hsize]; exact hlt, ?_⟩
    rw [hparent k hlt, heq, hscope]
  unique := fun d e k hd he => h.unique d e k (hbody d k hd).1 (hbody e k he).1
  unowned := fun k hk d hd => h.unowned k (hopen k hk) d (hbody d k hd).1

theorem innerScope?_eq_none (h : s.Undeclared d) : (s.symbol d).innerScope? = none := by
  rw [Symbol.innerScope?, show (s.symbol d).declaration? = none from h]
  rfl

theorem of_idle {n : SymbolId} (h : s.Nested) (hidle : Idle n s s') : s'.Nested := by
  refine h.of_innerScope? hidle.scopes_size hidle.parent? ?_ fun d k hd => ?_
  · rw [hidle.scope, hidle.outer]
    exact fun _ hk => hk
  · by_cases hlt : d < s.symbols.size
    · have hsame := (hidle.handled d hlt).retouched
      rw [hsame] at hd ⊢
      exact ⟨hd, rfl⟩
    · rw [innerScope?_eq_none (hidle.undeclared d (Nat.le_of_not_lt hlt))] at hd
      cases hd

theorem of_symbols (h : s.Nested) (symbols : s'.symbols = s.symbols) (scopes : s'.scopes = s.scopes)
    (scope : s'.scope = s.scope) (outer : s'.outer = s.outer) : s'.Nested := by
  refine h.of_innerScope? (by rw [scopes]) (fun k _ => by rw [scopeAt, scopeAt, scopes]) ?_ ?_
  · rw [scope, outer]
    exact fun _ hk => hk
  · intro d k hd
    have hsymbol : s'.symbol d = s.symbol d := by rw [State.symbol, State.symbol, symbols]
    rw [hsymbol] at hd ⊢
    exact ⟨hd, rfl⟩

theorem bind (h : s.Nested) (name : String) (id : SymbolId) : (s.bind name id).Nested := by
  refine h.of_innerScope? Array.size_modify ?_ (fun _ hk => hk) fun _ _ hd => ⟨hd, rfl⟩
  intro k _
  rw [scopeAt_bind]
  split <;> rfl

theorem declare (h : s.Nested) (hd : d < s.symbols.size) (type : SymbolId) :
    (s.declare d type).Nested := by
  refine h.of_innerScope? rfl (fun _ _ => rfl) (fun _ hk => hk) fun e k he => ?_
  by_cases heq : e = d
  · -- what has just been declared has no body yet
    rw [heq, symbol_declare hd] at he
    cases he
  · rw [State.declare, symbol_modifySymbol_of_ne heq] at he ⊢
    exact ⟨he, rfl⟩

theorem modifyDeclaration (h : s.Nested) (d : SymbolId) {f : Declaration → Declaration}
    (hf : ∀ x, (f x).innerScope? = x.innerScope?) : (s.modifyDeclaration d f).Nested := by
  refine h.of_innerScope? rfl (fun _ _ => rfl) (fun _ hk => hk) fun e k he => ?_
  have hsymbol := symbol_modifyDeclaration s d f e
  split at hsymbol
  · rw [hsymbol] at he ⊢
    refine ⟨?_, rfl⟩
    rw [← he, Symbol.innerScope?, Symbol.innerScope?]
    cases (s.symbol e).declaration? with
    | none => rfl
    | some x => exact (hf x).symm
  · rw [hsymbol] at he ⊢
    exact ⟨he, rfl⟩

theorem openScope (h : s.Nested) : s.openScope.Nested where
  root := by
    have hlt := h.open_lt s.scope List.mem_cons_self
    rw [scopeAt_openScope, if_neg (Nat.ne_of_lt (Nat.zero_lt_of_lt hlt))]
    exact h.root
  parent? := fun k hk hlt => by
    rw [scopeAt_openScope]
    split
    · rename_i heq
      rw [heq]
      exact ⟨s.scope, h.open_lt s.scope List.mem_cons_self, rfl⟩
    · rename_i hne
      rw [State.openScope, Array.size_push] at hlt
      exact h.parent? k hk (Nat.lt_of_le_of_ne (Nat.le_of_lt_succ hlt) hne)
  open_lt := fun k hk => by
    rw [State.openScope, Array.size_push]
    rcases List.mem_cons.1 hk with rfl | hk
    · exact Nat.lt_succ_self _
    · exact Nat.lt_succ_of_lt (h.open_lt k hk)
  body := fun d k hd => by
    obtain ⟨hk, hlt, hparent⟩ := h.body d k hd
    refine ⟨hk, ?_, ?_⟩
    · rw [State.openScope, Array.size_push]
      exact Nat.lt_succ_of_lt hlt
    · rw [scopeAt_openScope, if_neg (Nat.ne_of_lt hlt)]
      exact hparent
  unique := h.unique
  unowned := fun k hk d hd => by
    rcases List.mem_cons.1 hk with rfl | hk
    · -- the new scope has a number that no struct's body has
      exact absurd (h.body d _ hd).2.1 (Nat.lt_irrefl _)
    · exact h.unowned k hk d hd

theorem closeScope (h : s.Nested) : s.closeScope.Nested := by
  unfold State.closeScope
  split
  · exact h
  · rename_i scope outer houter
    refine h.of_innerScope? rfl (fun _ _ => rfl) (fun k hk => ?_) fun _ _ hd => ⟨hd, rfl⟩
    rw [houter]
    exact List.mem_cons_of_mem _ hk

/-- A struct gets its body, which lies inside the scope of the struct and is closed. -/
theorem setBody (h : s.Nested) (hk : 0 < k) (hlt : k < s.scopes.size)
    (hparent : (s.scopeAt k).parent? = (s.symbol d).scope?)
    (hclosed : k ∉ s.scope :: s.outer) (hnew : ∀ e, (s.symbol e).innerScope? ≠ some k) :
    (s.setBody d k).Nested := by
  have hsymbol := symbol_modifyDeclaration s d ({ · with innerScope? := some k })
  -- a body is the one that has just been given, or was there before
  have hinner : ∀ e j, ((s.setBody d k).symbol e).innerScope? = some j →
      e = d ∧ j = k ∨ (s.symbol e).innerScope? = some j := by
    intro e j he
    rw [State.setBody, hsymbol] at he
    split at he
    · rename_i heq
      left
      refine ⟨heq, ?_⟩
      rw [Symbol.innerScope?] at he
      cases hx : (s.symbol e).declaration? with
      | none =>
        rw [hx] at he
        cases he
      | some x =>
        rw [hx] at he
        exact (Option.some.inj he).symm
    · exact .inr he
  have hscope (e : SymbolId) : ((s.setBody d k).symbol e).scope? = (s.symbol e).scope? := by
    rw [State.setBody, hsymbol]
    split <;> rfl
  refine ⟨h.root, h.parent?, h.open_lt, ?_, ?_, ?_⟩
  · intro e j he
    rw [hscope]
    rcases hinner e j he with ⟨rfl, rfl⟩ | hold
    · exact ⟨hk, hlt, hparent⟩
    · exact h.body e j hold
  · intro e e' j he he'
    -- the new body was nobody's before, so that the two are both new or both old
    rcases hinner e j he with ⟨rfl, rfl⟩ | hold <;>
      rcases hinner e' _ he' with ⟨rfl, h'⟩ | hold'
    · rfl
    · exact absurd hold' (hnew e')
    · exact absurd (h' ▸ hold) (hnew e)
    · exact h.unique e e' j hold hold'
  · intro j hj e he
    rcases hinner e j he with ⟨-, rfl⟩ | hold
    · exact hclosed hj
    · exact h.unowned j hj e hold

end Nested

end State

end CStruct.Parse
