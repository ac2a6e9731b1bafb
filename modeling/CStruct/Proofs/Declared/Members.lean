import CStruct.Proofs.Declared.Parts

/-!
# What a declaration of members brings

A member is declared when it is the token, and passed at once. An array learns its length after
that. Members are no names of structs, so that what they bring is a list without any.
-/

namespace CStruct.Parse

open SymbolTable State

variable {t : SymbolTable} {s s' s'' : State} {d name keyword : SymbolId} {P : SymbolId → Prop}
  {names : List SymbolId} {fuel : Nat}

/-! ## Declaring the token -/

/-- A part of a source ends in passing a name that has just been declared. -/
theorem brings_pass {a : State} (hspares : Spares s.token s a) (hscope : a.scope = s.scope)
    (houter : a.outer = s.outer) (he : a.endSymbol? = none) (hsize : a.symbols.size = name + 1)
    (hc : a.Consistent fun e => e = name ∨ P e) (hmade : (a.advance t).Made name)
    (hlisted : Listed s.token s.scope s.scopes.size names a) : Brings P names s (a.advance t) := by
  obtain ⟨hsteady, hconsistent⟩ := hc.pass he (t := t) fun d hle hd => by
    have hlt := (bounds_size a).declared d hd
    rw [hsize] at hle hlt
    exact .inl (Nat.le_antisymm (Nat.le_of_lt_succ hlt) (Nat.le_of_succ_le_succ hle))
  refine ⟨hspares.trans (.advance _ t a) (Nat.le_refl _), hsteady, hconsistent.settle hmade, ?_, ?_,
    ?_⟩
  · rw [scope_advance.1, hscope]
  · rw [scope_advance.2, houter]
  · refine hlisted.of_spares (bounds_size a) (.advance _ t a) fun d hle hd => ?_
    rw [← token_advance (t := t) he] at hle
    exact absurd (hsteady.undeclared_of_le hle) hd

/-- Nothing stands for the token yet. -/
theorem State.Steady.ne_token (h : s.Steady) (k : ScopeId) (name : String) :
    (s.scopeAt k).get? name ≠ some s.token :=
  fun hk => Nat.lt_irrefl _ (h.entry_lt k name s.token hk)

/-! ## Members -/

theorem brings_member (hs : s.Steady) (hc : s.Consistent P) (hname : s.current.kind = .name)
    (hkeyword : s.IsKeyword keyword .member) (hk : s.scope ≠ 0) :
    Brings P [] s ((s.define s.token keyword).advance t) ∧
      ((s.define s.token keyword).advance t).IsDeclared s.token s.scope .member
        { declaredType := keyword } := by
  have he := hs.not_end hname
  have hsize : (s.define s.token keyword).symbols.size = s.token + 1 := by
    rw [size_define, hs.size]
  have hdefined := isDeclared_define hs.token_lt (hs.bounds.keyword _ _ hkeyword) hkeyword
  have hdeclared := (Spares.advance _ t (s.define s.token keyword)).isDeclared (bounds_size _)
    hdefined
  -- a member is not the name of a struct, neither before nor after
  have hlisted := (Listed.start hs s.scope s.scopes.size).alter (alters_define s s.token keyword)
    hname hdefined.kind hdefined.scope?
    (iff_of_false (not_heads_of_member hdefined) fun h => h.declared hs.undeclared)
  refine ⟨brings_pass (spares_define (Nat.le_refl _)) (scope_define s s.token keyword).1
    (scope_define s s.token keyword).2.1 ((endSymbol?_define s s.token keyword).trans he) hsize
    (hc.define hs.token_lt hname hs.undeclared hs.ne_token keyword) (.member hk hdeclared) hlisted,
    hdeclared⟩

/-- Reports a length that is no literal. -/
def State.checkLength (s : State) (length : SymbolId) : State :=
  if (s.symbol length).kind = .literal then s else s.report length .dimensionNotLiteral

theorem Idle.checkLength (n : SymbolId) (hs : s.Steady) (length : SymbolId) :
    Idle n s (s.checkLength length) := by
  unfold State.checkLength
  split
  · exact .refl n hs
  · exact .report n hs _ _

/-- The length of an array is read, and then the member gets to know it. -/
theorem dimension_cases (hread : Parse.dimension t d s = some s') :
    ∃ length s₁, expression t s.fuel 0 s = some (length, s₁) ∧
      s' = ((s₁.checkLength length).expect t "]").modifyDeclaration d
        ({ · with dimension? := some length }) := by
  obtain ⟨⟨length, s₁⟩, h₁, rfl⟩ := Option.map_eq_some_iff.1 hread
  exact ⟨length, s₁, h₁, rfl⟩

theorem brings_dimension (hs : s.Steady) (h : Brings P [] s s') (hd : s.token ≤ d)
    (hlt : d < s'.token) (hk : s.scope ≠ 0)
    (hdeclared : s'.IsDeclared d s.scope .member { declaredType := keyword })
    (hread : Parse.dimension t d s' = some s'') : Brings P [] s s'' := by
  obtain ⟨length, s₁, h₁, rfl⟩ := dimension_cases hread
  have hlength := idle_expression h.steady h₁
  have hliteral := hlength.trans (.checkLength s'.token hlength.steady length) (Nat.le_refl _)
  have hidle := hliteral.trans (.expect s'.token hliteral.steady t "]") (Nat.le_refl _)
  have hlast := hidle.isDeclared h.steady.bounds hdeclared
  have hchanged := hlast.modifyDeclaration ({ · with dimension? := some length }) rfl
  apply Brings.settle (d := d) _ (.member hk hchanged)
  apply (h.idle hs hidle).modifyDeclaration hlast rfl rfl hd
  · exact Nat.lt_of_lt_of_le hlt (hidle.token_le h.steady hidle.steady)
  · exact (h.idle hs hidle).consistent.modifyDeclaration (hlast.bare rfl rfl) fun _ => rfl

theorem brings_declarator (hs : s.Steady) (hc : s.Consistent P)
    (hkeyword : s.IsKeyword keyword .member) (hk : s.scope ≠ 0)
    (h : declarator t keyword s = some s') : Brings P [] s s' := by
  unfold declarator at h
  split at h
  · rename_i hname
    obtain ⟨hmember, hdeclared⟩ := brings_member (t := t) hs hc hname hkeyword hk
    dsimp only at h
    split at h
    · have hlt : s.token < ((s.define s.token keyword).advance t).token :=
        hmember.steady.lt_of_declared hdeclared.declared
      have hbracket := Idle.advance ((s.define s.token keyword).advance t).token hmember.steady t
      refine brings_dimension hs (hmember.idle hs hbracket) (Nat.le_refl _) ?_ hk
        (hbracket.isDeclared hmember.steady.bounds hdeclared) h
      exact Nat.lt_of_lt_of_le hlt (hbracket.token_le hmember.steady hbracket.steady)
    · cases h
      exact hmember
  · cases h
    have hreport := (Brings.refl hs hc).report hs s.token .memberNameMissing
    split
    · exact hreport
    · exact hreport.advance hs t

theorem brings_declarators (hs : s.Steady) (hc : s.Consistent P)
    (hkeyword : s.IsKeyword keyword .member) (hk : s.scope ≠ 0)
    (h : declarators t keyword fuel s = some s') : Brings P [] s s' := by
  -- on the fuel, which the recursion behind a comma spends
  induction fuel using Nat.strongRecOn generalizing s with
  | ind fuel ih =>
    obtain ⟨s₁, h₁, hcases⟩ := declarators_cases h
    have hfirst := brings_declarator hs hc hkeyword hk h₁
    rcases hcases with ⟨-, rfl⟩ | ⟨-, rest, rfl, h₂⟩
    · exact hfirst
    · have hcomma := hfirst.advance hs t
      apply hcomma.trans hs
      apply ih rest (Nat.lt_succ_self rest) hcomma.steady hcomma.consistent
        (hcomma.isKeyword hs.bounds hkeyword) _ h₂
      rw [hcomma.scope]
      exact hk

/-- Members are declared inside a struct only. -/
theorem brings_members (hs : s.Steady) (hc : s.Consistent P)
    (hkeyword : s.IsKeyword keyword .member) (h : members t keyword s = some s') :
    Brings P [] s s' := by
  unfold members at h
  split at h
  · cases h
    exact (Brings.refl hs hc).report hs _ _
  · rename_i hglobal
    have hk : s.scope ≠ 0 := hc.inside fun houter => hglobal (by rw [isGlobal, houter]; rfl)
    obtain ⟨s₁, h₁, rfl⟩ := Option.map_eq_some_iff.1 h
    have hall := brings_declarators hs hc hkeyword hk h₁
    split
    · exact hall.report hs _ _
    · exact hall.expect hs t ";"

end CStruct.Parse
