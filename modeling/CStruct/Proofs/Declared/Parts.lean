import CStruct.Proofs.Declared.Consistent

/-!
# Parts of a source

A part of a source `Brings` the names of the structs that it declares. It spares what stands before
it, leaves the state consistent and the scope open that was open. What several parts bring one after
the other is what they bring each.
-/

namespace CStruct.Parse

open SymbolTable State

variable {t : SymbolTable} {s s' s'' : State} {d keyword : SymbolId}
  {std : StatementDenotation} {x : Declaration} {P : SymbolId → Prop}
  {names names' : List SymbolId}

namespace State

/-- What a part of a source does that declares the structs `names` in the open scope. -/
structure Brings (P : SymbolId → Prop) (names : List SymbolId) (s s' : State) : Prop
    extends Spares s.token s s' where
  steady : s'.Steady
  consistent : s'.Consistent P
  scope : s'.scope = s.scope
  outer : s'.outer = s.outer
  listed : Listed s.token s.scope s.scopes.size names s'

namespace Brings

theorem of_idle (hs : s.Steady) (hc : s.Consistent P) (h : Idle s.token s s') :
    Brings P [] s s' where
  toSpares := h.toSpares
  steady := h.steady
  consistent := hc.of_idle hs h
  scope := h.scope
  outer := h.outer
  listed := (Listed.start hs s.scope s.scopes.size).of_idle hs h

theorem refl (hs : s.Steady) (hc : s.Consistent P) : Brings P [] s s := of_idle hs hc (.refl _ hs)

theorem trans (hs : s.Steady) (h : Brings P names s s') (h' : Brings P names' s' s'') :
    Brings P (names ++ names') s s'' where
  toSpares := h.toSpares.trans h'.toSpares (h.token_le hs h.steady)
  steady := h'.steady
  consistent := h'.consistent
  scope := h'.scope.trans h.scope
  outer := h'.outer.trans h.outer
  listed := by
    have hlisted := h'.listed
    rw [h.scope] at hlisted
    exact h.listed.append h.steady (h.token_le hs h.steady) h'.toSpares hlisted h.scopes_le

theorem idle (hs : s.Steady) (h : Brings P names s s') (h' : Idle s'.token s' s'') :
    Brings P names s s'' := by
  have hboth := h.trans hs (of_idle h.steady h.consistent h')
  rw [List.append_nil] at hboth
  exact hboth

theorem advance (hs : s.Steady) (h : Brings P names s s') (t : SymbolTable) :
    Brings P names s (s'.advance t) :=
  h.idle hs (.advance _ h.steady t)

theorem report (hs : s.Steady) (h : Brings P names s s') (id : SymbolId) (problem : Problem) :
    Brings P names s (s'.report id problem) :=
  h.idle hs (.report _ h.steady id problem)

theorem expect (hs : s.Steady) (h : Brings P names s s') (t : SymbolTable) (id : String) :
    Brings P names s (s'.expect t id) :=
  h.idle hs (.expect _ h.steady t id)

/-- A name has been declared with all that is to be known of it. -/
theorem settle (h : Brings (fun e => e = d ∨ P e) names s s') (hd : s'.Made d) :
    Brings P names s s' where
  toSpares := h.toSpares
  steady := h.steady
  consistent := h.consistent.settle hd
  scope := h.scope
  outer := h.outer
  listed := h.listed

/-! ### Changing a name that has been passed -/

/-- A name of the part is declared as a struct. Its other symbols may have been read, but nothing
has been declared in the part so far. -/
theorem define (h : Brings P [] s s') (hd : s.token ≤ d) (hlt : d < s'.token)
    (hkind : (s'.symbol d).kind = .name) (hundeclared : s'.Undeclared d)
    (hnew : ∀ k name, (s'.scopeAt k).get? name ≠ some d)
    (hkeyword : s'.IsKeyword keyword .struct) (hkd : keyword < d) :
    Brings (fun e => e = d ∨ P e) [d] s (s'.define d keyword) := by
  have hsize := Nat.lt_trans hlt h.steady.token_lt
  have hdeclared := isDeclared_define hsize hkd hkeyword
  rw [h.scope] at hdeclared
  refine ⟨h.toSpares.trans (spares_define hd) (Nat.le_refl _), h.steady.define hlt,
    h.consistent.define hsize hkind hundeclared hnew keyword, ?_, ?_, ?_⟩
  · rw [(scope_define s' d keyword).1, h.scope]
  · rw [(scope_define s' d keyword).2.1, h.outer]
  · exact h.listed.insert (alters_define s' d keyword) hkind hdeclared.kind hdeclared.scope? hd
      ⟨_, hdeclared, rfl⟩

section Changing

variable {f : Declaration → Declaration} (hdeclared : s'.IsDeclared d s.scope std x)
  (htype : (f x).declaredType = x.declaredType) (halias : (f x).isAlias = x.isAlias)
include hdeclared htype halias

theorem heads_modifyDeclaration :
    (s'.modifyDeclaration d f).Heads s.scope d ↔ s'.Heads s.scope d := by
  have hchanged := hdeclared.modifyDeclaration f htype
  cases std with
  | member => exact iff_of_false (not_heads_of_member hchanged) (not_heads_of_member hdeclared)
  | struct =>
    cases hx : x.isAlias with
    | false => exact iff_of_true ⟨_, hchanged, halias.trans hx⟩ ⟨_, hdeclared, hx⟩
    | true =>
      exact iff_of_false (not_heads_of_isAlias hchanged (halias.trans hx))
        (not_heads_of_isAlias hdeclared hx)

theorem listed_modifyDeclaration {n : SymbolId} {m : Nat}
    (h : Listed n s.scope m names s') :
    Listed n s.scope m names (s'.modifyDeclaration d f) := by
  have hchanged := hdeclared.modifyDeclaration f htype
  exact h.alter (alters_modifyDeclaration s' d f) hdeclared.kind hchanged.kind hchanged.scope?
    (heads_modifyDeclaration hdeclared htype halias)

/-- More becomes known of a name of the part. -/
theorem modifyDeclaration (h : Brings P names s s') (hd : s.token ≤ d) (hlt : d < s'.token)
    (hconsistent : (s'.modifyDeclaration d f).Consistent fun e => e = d ∨ P e) :
    Brings (fun e => e = d ∨ P e) names s (s'.modifyDeclaration d f) where
  toSpares := h.toSpares.trans (.modifyDeclaration hd f) (Nat.le_refl _)
  steady := h.steady.modifySymbol hlt _
  consistent := hconsistent
  scope := h.scope
  outer := h.outer
  listed := listed_modifyDeclaration hdeclared htype halias h.listed

end Changing

end Brings

end State

end CStruct.Parse
