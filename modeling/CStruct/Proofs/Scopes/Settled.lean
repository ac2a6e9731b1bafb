import CStruct.Proofs.Parse.Effects
import CStruct.Proofs.Scopes.Framing

/-!
# No declaration is lost silently

A declaration stands in its scope under its own spelling, and whatever takes its place is worth a
warning, but for a struct with a body that takes the place of its forward declaration. While the body
of a struct is read, the struct does not have it yet: the structs that are being read are `open`, and
count as if they had a body.
-/

namespace CStruct.Parse

open SymbolTable State

namespace State

variable {t : SymbolTable} {s s' s'' : State} {name type tag : SymbolId} {O O' : SymbolId → Prop}

/-! ## Settled declarations -/

/-- The symbol is the entry of its own scope under its own spelling. -/
def Stands (s : State) (id : SymbolId) : Prop :=
  ∃ k, (s.symbol id).scope? = some k ∧ (s.scopeAt k).get? (s.symbol id).value = some id

/-- The symbol declares a struct ahead of its body. -/
structure Forward (s : State) (id : SymbolId) : Prop where
  struct : s.isStruct id = true
  isAlias : (s.symbol id).isAlias = false
  innerScope? : (s.symbol id).innerScope? = none

/-- In the place of a forward declaration stands a struct of the same name that has a body or is
open. -/
def Completed (O : SymbolId → Prop) (s : State) (id : SymbolId) : Prop :=
  s.Forward id ∧ ∃ k other, (s.symbol id).scope? = some k ∧
    (s.scopeAt k).get? (s.symbol id).value = some other ∧ s.isStruct other = true ∧
      (s.symbol other).value = (s.symbol id).value ∧
        ((s.symbol other).innerScope?.isSome = true ∨ O other)

/-- Every declaration stands in its scope or has been completed. -/
def Settled (O : SymbolId → Prop) (s : State) : Prop :=
  ∀ id, (s.symbol id).isDeclaration = true → s.Stands id ∨ s.Completed O id

theorem Stands.of_lasts {id : SymbolId} (h : s.Stands id)
    (hlasts : Lasts (s.symbol id) (s'.symbol id)) (hscopes : s'.scopes = s.scopes) :
    s'.Stands id := by
  obtain ⟨k, hscope, hentry⟩ := h
  refine ⟨k, hlasts.scope?.trans hscope, ?_⟩
  rw [hlasts.value, State.scopeAt, hscopes]
  exact hentry

theorem Settled.mono (h : s.Settled O) (hle : ∀ id, O id → O' id) : s.Settled O' := by
  intro id hid
  rcases h id hid with hstands | ⟨hforward, k, other, hscope, hentry, hstruct, hvalue, hbody⟩
  · exact .inl hstands
  · exact .inr ⟨hforward, k, other, hscope, hentry, hstruct, hvalue, hbody.imp_right (hle other)⟩

theorem isDeclaration_of_isStruct {id : SymbolId} (h : s.isStruct id = true) :
    (s.symbol id).isDeclaration = true :=
  (Bool.and_eq_true_iff.1 h).1

theorem isStruct_of_lasts {id : SymbolId} (h : Lasts (s.symbol id) (s'.symbol id))
    (hspelled : ∀ i, s.isStructKeyword i = true → s'.isStructKeyword i = true)
    (hid : s.isStruct id = true) : s'.isStruct id = true := by
  obtain ⟨-, htype⟩ := Bool.and_eq_true_iff.1 hid
  refine Bool.and_eq_true_iff.2 ⟨h.declared, ?_⟩
  rw [h.declaredType?]
  cases hdeclared : (s.symbol id).declaredType? with
  | none =>
    rw [hdeclared] at htype
    cases htype
  | some i =>
    rw [hdeclared, Option.any_some] at htype
    exact hspelled i htype

theorem Forward.of_lasts {id : SymbolId} (h : s.Forward id)
    (hlasts : Lasts (s.symbol id) (s'.symbol id))
    (hspelled : ∀ i, s.isStructKeyword i = true → s'.isStructKeyword i = true)
    (hbody : (s'.symbol id).innerScope? = (s.symbol id).innerScope?) : s'.Forward id where
  struct := isStruct_of_lasts hlasts hspelled h.struct
  isAlias := hlasts.isAlias.trans h.isAlias
  innerScope? := hbody.trans h.innerScope?

/-! ## Changes that leave declarations alone -/

/-- What is declared stays as it is, and is the entry that it was. -/
structure Carries (s s' : State) : Prop where
  lasts : ∀ id, (s.symbol id).isDeclaration = true → Lasts (s.symbol id) (s'.symbol id)
  innerScope? : ∀ id, (s.symbol id).isDeclaration = true →
    (s'.symbol id).innerScope? = (s.symbol id).innerScope?
  spelled : ∀ id, s.isStructKeyword id = true → s'.isStructKeyword id = true
  declared : ∀ id, (s'.symbol id).isDeclaration = true → (s.symbol id).isDeclaration = true
  entry : ∀ k name id, (s.scopeAt k).get? name = some id → (s.symbol id).isDeclaration = true →
    (s'.scopeAt k).get? name = some id

theorem Carries.trans (h : s.Carries s') (h' : s'.Carries s'') : s.Carries s'' where
  lasts := fun id hid => (h.lasts id hid).trans (h'.lasts id (h.lasts id hid).declared)
  innerScope? := fun id hid =>
    (h'.innerScope? id (h.lasts id hid).declared).trans (h.innerScope? id hid)
  spelled := fun id hid => h'.spelled id (h.spelled id hid)
  declared := fun id hid => h.declared id (h'.declared id hid)
  entry := fun k name id hk hid =>
    h'.entry k name id (h.entry k name id hk hid) (h.lasts id hid).declared

theorem Carries.settled (h : s.Carries s') (hs : s.Settled O) : s'.Settled O := by
  intro id hid
  have hid := h.declared id hid
  have hlasts := h.lasts id hid
  rcases hs id hid with ⟨k, hscope, hentry⟩ | ⟨hforward, k, other, hscope, hentry, hstruct, hvalue, hbody⟩
  · left
    refine ⟨k, hlasts.scope?.trans hscope, ?_⟩
    rw [hlasts.value]
    exact h.entry k _ id hentry hid
  · right
    have hother := isDeclaration_of_isStruct hstruct
    refine ⟨hforward.of_lasts hlasts h.spelled (h.innerScope? id hid), k, other,
      hlasts.scope?.trans hscope, ?_, isStruct_of_lasts (h.lasts other hother) h.spelled hstruct, ?_,
      ?_⟩
    · rw [hlasts.value]
      exact h.entry k _ other hentry hother
    · rw [(h.lasts other hother).value, hlasts.value]
      exact hvalue
    · rw [h.innerScope? other hother]
      exact hbody

/-- A change to a symbol that is not declared, and to nothing else. -/
theorem carries_of_ne (hname : s.Undeclared name) (hname' : s'.Undeclared name)
    (hvalue : (s'.symbol name).value = (s.symbol name).value)
    (hsymbol : ∀ id ≠ name, s'.symbol id = s.symbol id) (hscopes : s'.scopes = s.scopes) :
    s.Carries s' where
  lasts := fun id hid => by
    rw [hsymbol id (hname.ne_of_isDeclaration hid)]
    exact .refl hid
  innerScope? := fun id hid => by rw [hsymbol id (hname.ne_of_isDeclaration hid)]
  spelled := fun id hid => by
    by_cases hne : id = name
    · rw [hne] at hid ⊢
      rw [State.isStructKeyword, hvalue]
      exact hid
    · rw [State.isStructKeyword, hsymbol id hne]
      exact hid
  declared := fun id hid => by
    rw [hsymbol id (hname'.ne_of_isDeclaration hid)] at hid
    exact hid
  entry := fun k value id hk _ => by
    rw [State.scopeAt, hscopes]
    exact hk

theorem carries_of_eq (hsymbols : s'.symbols = s.symbols) (hscopes : s'.scopes = s.scopes) :
    s.Carries s' := by
  have hsymbol (id : SymbolId) : s'.symbol id = s.symbol id := by
    rw [State.symbol, State.symbol, hsymbols]
  exact
    { lasts := fun id hid => by rw [hsymbol]; exact .refl hid
      innerScope? := fun id _ => by rw [hsymbol]
      spelled := fun id hid => by rw [State.isStructKeyword, hsymbol]; exact hid
      declared := fun id hid => by rw [hsymbol] at hid; exact hid
      entry := fun k value id hk _ => by rw [State.scopeAt, hscopes]; exact hk }

theorem carries_advance (t : SymbolTable) (s : State) : s.Carries (s.advance t) where
  lasts := (scopeFrame_advance t s).lasts
  innerScope? := fun id hid => by rw [symbol_advance (lt_of_isDeclaration hid)]
  spelled := fun id hid => by
    by_cases hlt : id < s.symbols.size
    · rw [State.isStructKeyword, symbol_advance hlt]
      exact hid
    · rw [State.isStructKeyword, State.symbol, Array.getD_eq_getD_getElem?,
        Array.getElem?_eq_none (Nat.le_of_not_lt hlt)] at hid
      have hdefault : (((none : Option Symbol).getD default).value == structKeyword) = false := by
        decide
      rw [hdefault] at hid
      cases hid
  declared := fun id hid => by
    rcases symbol_advance_cases t s id with heq | heq | ⟨l, heq⟩ | heq
    · rw [heq] at hid
      exact hid
    · rw [heq] at hid
      cases hid
    · rw [heq, Symbol.isDeclaration] at hid
      cases (Bool.and_eq_true_iff.1 hid).2
    · rw [heq] at hid
      cases hid
  entry := fun k value id hk _ => by
    rw [State.scopeAt, scopes_advance]
    exact hk

/-- A change to how a symbol is to be read. -/
theorem carries_modifySymbol (hname : s.Undeclared name) {f : Symbol → Symbol}
    (hvalue : ∀ x, (f x).value = x.value) (hdeclaration : ∀ x, (f x).declaration? = x.declaration?) :
    s.Carries (s.modifySymbol name f) := by
  apply carries_of_ne hname
  · rw [State.Undeclared, Parse.symbol_modifySymbol]
    split
    · exact (hdeclaration _).trans hname
    · exact hname
  · rw [Parse.symbol_modifySymbol]
    split
    · exact hvalue _
    · rfl
  · exact fun id hne => symbol_modifySymbol_of_ne hne
  · rfl

theorem isDeclaration_modifyDeclaration (s : State) (id i : SymbolId)
    (f : Declaration → Declaration) :
    ((s.modifyDeclaration id f).symbol i).isDeclaration = (s.symbol i).isDeclaration := by
  rw [State.modifyDeclaration, Parse.symbol_modifySymbol]
  split
  · rw [Symbol.isDeclaration, Option.isSome_map]
    rfl
  · rfl

theorem isStructKeyword_modifyDeclaration (s : State) (id i : SymbolId)
    (f : Declaration → Declaration) :
    (s.modifyDeclaration id f).isStructKeyword i = s.isStructKeyword i := by
  rw [State.isStructKeyword, State.modifyDeclaration, (touches_declaration _).value_eq]
  rfl

/-- Changing what is known of a declared name, but neither how it was declared nor its body. -/
theorem carries_modifyDeclaration (s : State) (id : SymbolId) {f : Declaration → Declaration}
    (htype : ∀ d, (f d).declaredType = d.declaredType) (halias : ∀ d, (f d).isAlias = d.isAlias)
    (hbody : ∀ d, (f d).innerScope? = d.innerScope?) : s.Carries (s.modifyDeclaration id f) := by
  refine ⟨(scopeFrame_modifyDeclaration s id htype halias).lasts, ?_, ?_, ?_, fun _ _ _ hk _ => hk⟩
  · intro i _
    rw [State.modifyDeclaration, Parse.symbol_modifySymbol]
    split
    · show ((s.symbol i).declaration?.map f).bind (·.innerScope?) = _
      rw [Symbol.innerScope?]
      cases (s.symbol i).declaration? with
      | none => rfl
      | some d => exact hbody d
    · rfl
  · intro i hi
    rw [isStructKeyword_modifyDeclaration]
    exact hi
  · intro i hi
    rw [isDeclaration_modifyDeclaration] at hi
    exact hi

/-- Binding a name takes the place of no declaration. -/
theorem carries_bind {value : String} (id : SymbolId)
    (hfree : ∀ other, s.local? value = some other → ¬(s.symbol other).isDeclaration = true) :
    s.Carries (s.bind value id) := by
  refine ⟨fun _ hid => .refl hid, fun _ _ => rfl, fun _ hid => hid, fun _ hid => hid, ?_⟩
  intro k name other hk hother
  rw [scopeAt_bind]
  split
  · rename_i hopen
    rw [Scope.get?, Scope.insert, Dictionary.get?_insert, if_neg]
    · exact hk
    · intro hname
      refine hfree other ?_ hother
      rw [State.local?, ← hopen.1, ← hname]
      exact hk
  · exact hk

theorem carries_openScope (s : State) : s.Carries s.openScope := by
  refine ⟨fun _ hid => .refl hid, fun _ _ => rfl, fun _ hid => hid, fun _ hid => hid, ?_⟩
  intro k name id hk _
  rw [scopeAt_openScope, if_neg]
  · exact hk
  · intro hnew
    rw [hnew, State.scopeAt, Array.getD_eq_getD_getElem?,
      Array.getElem?_eq_none (Nat.le_refl _)] at hk
    cases hk

theorem carries_closeScope (s : State) : s.Carries s.closeScope := by
  unfold State.closeScope
  split <;> exact carries_of_eq rfl rfl

theorem carries_expect (t : SymbolTable) (id : String) (s : State) : s.Carries (s.expect t id) := by
  unfold State.expect
  split
  · exact carries_advance t s
  · have hreport : s.Carries (s.reportExpected id) := carries_of_eq rfl rfl
    exact hreport.trans (carries_advance t _)

/-! ## Giving a struct its body -/

/-- A struct that stands in its scope gets the body that it was open for. -/
theorem settled_setBody (h : s.Settled fun id => O id ∨ id = tag)
    (htag : (s.symbol tag).isDeclaration = true) (hstands : s.Stands tag) (body : ScopeId) :
    (s.setBody tag body).Settled O := by
  have hlasts := (scopeFrame_setBody s tag body).lasts
  have hsymbol (id : SymbolId) (hne : id ≠ tag) : (s.setBody tag body).symbol id = s.symbol id :=
    symbol_modifySymbol_of_ne hne
  have hspelled (id : SymbolId) (hid : s.isStructKeyword id = true) :
      (s.setBody tag body).isStructKeyword id = true := by
    rw [State.setBody, isStructKeyword_modifyDeclaration]
    exact hid
  have hsome : ((s.setBody tag body).symbol tag).innerScope?.isSome = true := by
    obtain ⟨d, hd⟩ := Option.isSome_iff_exists.1 (Bool.and_eq_true_iff.1 htag).2
    rw [symbol_setBody (lt_of_isDeclaration htag), Symbol.innerScope?, hd]
    rfl
  intro id hid
  rw [State.setBody, isDeclaration_modifyDeclaration] at hid
  by_cases hne : id = tag
  · -- It is a forward declaration no more, but it need not be: it stands.
    left
    rw [hne]
    exact hstands.of_lasts (hlasts tag htag) rfl
  -- Any other symbol stands as before, or the struct in its place has a body or just got it.
  rcases h id hid with hold | ⟨hforward, k, other, hscope, hentry, hstruct, hvalue, hbody⟩
  · left
    exact hold.of_lasts (hlasts id hid) rfl
  · right
    have hother := hlasts other (isDeclaration_of_isStruct hstruct)
    have hbody? := congrArg Symbol.innerScope? (hsymbol id hne)
    refine ⟨hforward.of_lasts (hlasts id hid) hspelled hbody?, k, other,
      (hlasts id hid).scope?.trans hscope, ?_, isStruct_of_lasts hother hspelled hstruct, ?_, ?_⟩
    · rw [hsymbol id hne]
      exact hentry
    · rw [hsymbol id hne, hother.value]
      exact hvalue
    · by_cases heq : other = tag
      · rw [heq]
        exact .inl hsome
      · rw [hsymbol other heq]
        exact hbody.imp_right (·.resolve_right heq)

/-! ## Declarations -/

/-- The name becomes a declaration in the open scope and stands there. -/
structure Enters (s s' : State) (name : SymbolId) : Prop where
  lasts : ∀ id, (s.symbol id).isDeclaration = true → Lasts (s.symbol id) (s'.symbol id)
  innerScope? : ∀ id, (s.symbol id).isDeclaration = true →
    (s'.symbol id).innerScope? = (s.symbol id).innerScope?
  spelled : ∀ id, s.isStructKeyword id = true → s'.isStructKeyword id = true
  declared : ∀ id ≠ name, (s'.symbol id).isDeclaration = true → (s.symbol id).isDeclaration = true
  value : (s'.symbol name).value = (s.symbol name).value
  scope? : (s'.symbol name).scope? = some s.scope
  entry : ∀ k other, (s'.scopeAt k).get? other =
    if k = s.scope ∧ other = (s.symbol name).value then some name else (s.scopeAt k).get? other

/-- A declaration that takes the place of nothing, or of a forward declaration that it completes. -/
theorem Enters.settled (h : s.Enters s' name) (hs : s.Settled O) (hle : ∀ id, O id → O' id)
    (hclosed : ∀ value id, s.local? value = some id → ¬O id)
    (hfree : ∀ existing, s.local? (s.symbol name).value = some existing →
      s.Forward existing ∧ s'.isStruct name = true ∧ O' name) : s'.Settled O' := by
  intro id hid
  by_cases hne : id = name
  · -- The name itself stands where it has just been entered.
    left
    refine ⟨s.scope, hne ▸ h.scope?, ?_⟩
    rw [h.entry, hne, h.value, if_pos ⟨rfl, rfl⟩]
  have hid := h.declared id hne hid
  have hlasts := h.lasts id hid
  have hforward (hahead : s.Forward id) : s'.Forward id :=
    hahead.of_lasts hlasts h.spelled (h.innerScope? id hid)
  rcases hs id hid with ⟨k, hscope, hentry⟩ | ⟨hahead, k, other, hscope, hentry, hstruct, hvalue, hbody⟩
  · by_cases hplace : k = s.scope ∧ (s.symbol id).value = (s.symbol name).value
    · -- The place of the declaration itself: it is a forward declaration, and completed.
      right
      rw [hplace.1, hplace.2] at hentry
      obtain ⟨hahead, hstruct, hopen⟩ := hfree id hentry
      refine ⟨hforward hahead, k, name, hlasts.scope?.trans hscope, ?_, hstruct, ?_, .inr hopen⟩
      · rw [h.entry, hlasts.value, if_pos hplace]
      · rw [h.value, hlasts.value, hplace.2]
    · left
      refine ⟨k, hlasts.scope?.trans hscope, ?_⟩
      rw [h.entry, hlasts.value, if_neg hplace]
      exact hentry
  · have hother := isDeclaration_of_isStruct hstruct
    by_cases hplace : k = s.scope ∧ (s.symbol id).value = (s.symbol name).value
    · -- The place of a struct with a body is not taken.
      rw [hplace.1, hplace.2] at hentry
      obtain ⟨hahead, -⟩ := hfree other hentry
      rcases hbody with hsome | hopen
      · rw [hahead.innerScope?] at hsome
        cases hsome
      · exact absurd hopen (hclosed _ _ hentry)
    · right
      refine ⟨hforward hahead, k, other, hlasts.scope?.trans hscope, ?_,
        isStruct_of_lasts (h.lasts other hother) h.spelled hstruct, ?_, ?_⟩
      · rw [h.entry, hlasts.value, if_neg hplace]
        exact hentry
      · rw [(h.lasts other hother).value, hlasts.value]
        exact hvalue
      · rw [h.innerScope? other hother]
        exact hbody.imp_right (hle other)

theorem enters_bind (hfresh : s.Undeclared name) (hopen : s.scope < s.scopes.size)
    (hsymbol : ∀ id ≠ name, s'.symbol id = s.symbol id)
    (hvalue : (s'.symbol name).value = (s.symbol name).value)
    (hscope? : (s'.symbol name).scope? = some s.scope) (hscopes : s'.scopes = s.scopes)
    (hscope : s'.scope = s.scope) : s.Enters (s'.bind (s.symbol name).value name) name where
  lasts := fun id hid => by
    show Lasts (s.symbol id) (s'.symbol id)
    rw [hsymbol id (hfresh.ne_of_isDeclaration hid)]
    exact .refl hid
  innerScope? := fun id hid => by
    show (s'.symbol id).innerScope? = _
    rw [hsymbol id (hfresh.ne_of_isDeclaration hid)]
  spelled := fun id hid => by
    show ((s'.symbol id).value == structKeyword) = true
    by_cases hne : id = name
    · rw [hne, hvalue, ← hne]
      exact hid
    · rw [hsymbol id hne]
      exact hid
  declared := fun id hne hid => by
    change (s'.symbol id).isDeclaration = true at hid
    rw [hsymbol id hne] at hid
    exact hid
  value := hvalue
  scope? := hscope?
  entry := fun k other => by
    rw [scopeAt_bind, hscope, hscopes]
    -- an entry changes in the open scope only, and only that of the name
    by_cases hk : k = s.scope
    · rw [if_pos ⟨hk, hk ▸ hopen⟩, Scope.get?, Scope.insert, Dictionary.get?_insert,
        show s'.scopeAt k = s.scopeAt k by rw [State.scopeAt, State.scopeAt, hscopes]]
      by_cases hother : other = (s.symbol name).value
      · rw [if_pos hother, if_pos ⟨hk, hother⟩]
      · rw [if_neg hother, if_neg fun h => hother h.2]
        rfl
    · rw [if_neg fun h => hk h.1, if_neg fun h => hk h.1, State.scopeAt, State.scopeAt, hscopes]

end State

end CStruct.Parse
