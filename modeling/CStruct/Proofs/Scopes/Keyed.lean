import CStruct.Proofs.Parse.Conservation

/-!
# Names stand for symbols spelled like them

Every entry of a scope is a symbol that has been read, under its own spelling. So what a name means
is taken over from a symbol of the same spelling, and in the table of C only the symbol that is
spelled `struct` declares structs, whatever has been declared.
-/

namespace CStruct.Parse

open SymbolTable State

variable {s s' : State}

namespace State

/-- Entries are found under their own spelling, and what declares members is not spelled `struct`.
-/
structure Keyed (s : State) : Prop where
  lt : ∀ k name id, (s.scopeAt k).get? name = some id → id < s.symbols.size
  value : ∀ k name id, (s.scopeAt k).get? name = some id → (s.symbol id).value = name
  member : ∀ id, (s.symbol id).role.std = some .member → (s.symbol id).value ≠ structKeyword

theorem Keyed.of_eq (h : s.Keyed) (symbols : s'.symbols = s.symbols)
    (scopes : s'.scopes = s.scopes) : s'.Keyed := by
  refine ⟨?_, ?_, ?_⟩
  · intro k name id hk
    rw [State.scopeAt, scopes] at hk
    rw [symbols]
    exact h.lt k name id hk
  · intro k name id hk
    rw [State.scopeAt, scopes] at hk
    rw [State.symbol, symbols]
    exact h.value k name id hk
  · intro id
    rw [State.symbol, symbols]
    exact h.member id

/-- Only `struct` itself may not be spelled `struct` without declaring structs. -/
theorem ne_struct_of_get? {id : String} {p : Prototype} (h : cStructs.get? id = some p)
    (hp : p.role.std = some .member) : id ≠ structKeyword := by
  intro hid
  have hstruct : (cStructs.get? structKeyword).map (·.role.std) = some (some .struct) := by decide
  rw [hid] at h
  rw [h, Option.map_some, hp] at hstruct
  cases hstruct

/-- What a lexeme does at the start of a statement is said by the table, under its spelling, or by a
symbol of the same spelling. -/
theorem Keyed.std_prototypeOf (h : s.Keyed) {l : Lexeme} {std : StatementDenotation}
    (hl : (s.prototypeOf cStructs l).role.std = some std) :
    (∃ p, cStructs.get? l.text = some p ∧ p.role.std = some std) ∨
      ∃ id, (s.symbol id).value = l.text ∧ (s.symbol id).role.std = some std := by
  have hget (p : Prototype) (hp : ((cStructs.get? l.text).getD p).role.std = some std)
      (hnone : p.role.std = none) : ∃ p, cStructs.get? l.text = some p ∧ p.role.std = some std := by
    cases hfound : cStructs.get? l.text with
    | none =>
      rw [hfound, Option.getD_none, hnone] at hp
      cases hp
    | some found =>
      rw [hfound, Option.getD_some] at hp
      exact ⟨found, rfl, hp⟩
  have hresolve (hp : (s.resolve cStructs l.text).role.std = some std) :
      (∃ p, cStructs.get? l.text = some p ∧ p.role.std = some std) ∨
        ∃ id, (s.symbol id).value = l.text ∧ (s.symbol id).role.std = some std := by
    unfold State.resolve at hp
    split at hp
    · rename_i id hid
      -- the lexeme is spelled like the symbol that it stands for
      obtain ⟨k, -, hk⟩ := List.exists_of_findSome?_eq_some hid
      exact .inr ⟨id, h.value k l.text id hk, hp⟩
    · exact .inl (hget _ hp (by decide))
  unfold State.prototypeOf State.prototype? at hl
  cases hkind : l.kind with
  | name =>
    rw [hkind] at hl
    exact hresolve hl
  | type =>
    rw [hkind] at hl
    exact hresolve hl
  | number =>
    rw [hkind] at hl
    have hliteral : (cStructs.prototype literalId).role.std = none := by decide
    exact absurd (hliteral.symm.trans hl) nofun
  | operator =>
    rw [hkind] at hl
    exact .inl (hget _ hl rfl)
  | comment =>
    rw [hkind] at hl
    exact .inl (hget _ hl rfl)

theorem Keyed.prototypeOf (h : s.Keyed) {l : Lexeme}
    (hl : (s.prototypeOf cStructs l).role.std = some .member) : l.text ≠ structKeyword := by
  rcases h.std_prototypeOf hl with ⟨p, hp, hstd⟩ | ⟨id, hvalue, hstd⟩
  · exact ne_struct_of_get? hp hstd
  · rw [← hvalue]
    exact h.member id hstd

theorem Keyed.advance (h : s.Keyed) : (s.advance cStructs).Keyed := by
  refine ⟨?_, ?_, ?_⟩
  · intro k name id hk
    rw [State.scopeAt, scopes_advance] at hk
    exact Nat.lt_of_lt_of_le (h.lt k name id hk) size_le_advance
  · intro k name id hk
    rw [State.scopeAt, scopes_advance] at hk
    rw [symbol_advance (h.lt k name id hk)]
    exact h.value k name id hk
  · intro id hmember
    rcases symbol_advance_cases cStructs s id with hid | hid | ⟨l, hid⟩ | hid
    · rw [hid] at hmember ⊢
      exact h.member id hmember
    · rw [hid] at hmember
      cases hmember
    · rw [hid] at hmember ⊢
      exact h.prototypeOf hmember
    · rw [hid] at hmember
      have hend : (cStructs.prototype endId).role.std = none := by decide
      cases hend.symm.trans hmember

theorem Keyed.touch (h : s.Keyed) {f : Symbol → Symbol} (hf : Touches f) (id : SymbolId) :
    (s.modifySymbol id f).Keyed := by
  refine ⟨?_, ?_, ?_⟩
  · intro k name i hk
    rw [State.modifySymbol, Array.size_modify]
    exact h.lt k name i hk
  · intro k name i hk
    rw [hf.value_eq]
    exact h.value k name i hk
  · intro i hmember
    rw [hf.value_eq]
    rw [Parse.symbol_modifySymbol] at hmember
    split at hmember
    · rcases hf.role (s.symbol i) with hrole | hrole
      · rw [hrole] at hmember
        exact h.member i hmember
      · rw [hrole] at hmember
        cases hmember
    · exact h.member i hmember

theorem Keyed.bind (h : s.Keyed) {id : SymbolId} (hid : id < s.symbols.size) {name : String}
    (hname : (s.symbol id).value = name) : (s.bind name id).Keyed := by
  refine ⟨?_, ?_, h.member⟩
  · intro k other i hk
    rcases entry_bind hk with ⟨rfl, -⟩ | hold
    · exact hid
    · exact h.lt k other i hold
  · intro k other i hk
    rcases entry_bind hk with ⟨rfl, rfl⟩ | hold
    · exact hname
    · exact h.value k other i hold

theorem Keyed.openScope (h : s.Keyed) : s.openScope.Keyed := by
  refine ⟨?_, ?_, h.member⟩
  · intro k name id hk
    rw [scopeAt_openScope] at hk
    split at hk
    · cases hk
    · exact h.lt k name id hk
  · intro k name id hk
    rw [scopeAt_openScope] at hk
    split at hk
    · cases hk
    · exact h.value k name id hk

end State

theorem Change.keyed (h : Change cStructs s s') (hs : s.Keyed) : s'.Keyed := by
  cases h with
  | advance => exact hs.advance
  | report => exact hs.of_eq rfl rfl
  | touch hplain hf => exact hs.touch hf _
  | bind hplain hname => exact hs.bind hplain.lt hname
  | openScope => exact hs.openScope
  | closeScope =>
    unfold State.closeScope
    split
    · exact hs
    · exact hs.of_eq rfl rfl

theorem Changes.keyed (h : Changes cStructs s s') (hs : s.Keyed) : s'.Keyed := by
  induction h with
  | refl => exact hs
  | tail _ hchange ih => exact hchange.keyed ih

theorem keyed_ofLexemes (lexemes : List Lexeme) (endPosition : Position) :
    (State.ofLexemes lexemes endPosition).Keyed := by
  refine ⟨?_, ?_, nofun⟩
  · intro k name id hk
    rw [scopeAt_ofLexemes] at hk
    cases hk
  · intro k name id hk
    rw [scopeAt_ofLexemes] at hk
    cases hk

/-! ## Keywords of the table -/

namespace State

/-- What starts a statement is spelled like a keyword of the table that starts such a statement. -/
def Spelled (s : State) : Prop := ∀ id std, (s.symbol id).role.std = some std →
  ∃ p, cStructs.get? (s.symbol id).value = some p ∧ p.role.std = some std

theorem Spelled.of_symbols (h : s.Spelled) (symbols : s'.symbols = s.symbols) : s'.Spelled := by
  intro id std
  rw [State.symbol, symbols]
  exact h id std

theorem Spelled.advance (h : s.Spelled) (hkeyed : s.Keyed) : (s.advance cStructs).Spelled := by
  intro id std hstd
  rcases symbol_advance_cases cStructs s id with hid | hid | ⟨l, hid⟩ | hid
  · rw [hid] at hstd ⊢
    exact h id std hstd
  · rw [hid] at hstd
    cases hstd
  · rw [hid] at hstd ⊢
    rcases hkeyed.std_prototypeOf hstd with hget | ⟨other, hvalue, hother⟩
    · exact hget
    · show ∃ p, cStructs.get? l.text = some p ∧ p.role.std = some std
      rw [← hvalue]
      exact h other std hother
  · rw [hid] at hstd
    have hend : (cStructs.prototype endId).role.std = none := by decide
    cases hend.symm.trans hstd

theorem Spelled.touch (h : s.Spelled) {f : Symbol → Symbol} (hf : Touches f) (id : SymbolId) :
    (s.modifySymbol id f).Spelled := by
  intro i std hstd
  rw [hf.value_eq]
  rw [Parse.symbol_modifySymbol] at hstd
  split at hstd
  · rcases hf.role (s.symbol i) with hrole | hrole
    · rw [hrole] at hstd
      exact h i std hstd
    · rw [hrole] at hstd
      cases hstd
  · exact h i std hstd

end State

theorem Changes.spelled (h : Changes cStructs s s') (hkeyed : s.Keyed) (hs : s.Spelled) :
    s'.Spelled := by
  induction h with
  | refl => exact hs
  | tail hbefore hchange ih =>
    cases hchange with
    | advance => exact ih.advance (Changes.keyed hbefore hkeyed)
    | report => exact ih.of_symbols rfl
    | touch hplain hf => exact ih.touch hf _
    | bind => exact ih.of_symbols rfl
    | openScope => exact ih.of_symbols rfl
    | closeScope =>
      unfold State.closeScope
      split
      · exact ih
      · exact ih.of_symbols rfl

theorem spelled_ofLexemes (lexemes : List Lexeme) (endPosition : Position) :
    (State.ofLexemes lexemes endPosition).Spelled := nofun

end CStruct.Parse
