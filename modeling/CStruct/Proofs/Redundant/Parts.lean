import CStruct.Proofs.Redundant.Defining
import CStruct.Proofs.Statements.Reached

/-!
# Members in both readings

What is read without a remark in the first reading is read in the second as well, and both are
abreast again behind it. What was put in has to be ahead of such a part or behind it, never in it.
-/

namespace CStruct.Parse

open SymbolTable State

variable {k : Nat} {n : String} {s s' s₁ s₁' s₂ : State} {id name keyword : SymbolId}

/-! ## What a part without remarks looks like -/

theorem expect_of_clean {t : SymbolTable} {id : String} (h : (s.expect t id).Clean) :
    s.check id = true ∧ s.expect t id = s.advance t := by
  unfold State.expect at h ⊢
  by_cases hcheck : s.check id = true
  · rw [if_pos hcheck] at h ⊢
    exact ⟨hcheck, rfl⟩
  · rw [if_neg hcheck] at h
    exact absurd ((grows_advance t _).clean h) (not_clean_report s _ _)

theorem expect_of_check {t : SymbolTable} {id : String} (h : s.check id = true) :
    s.expect t id = s.advance t := by
  rw [State.expect, if_pos h]

/-- An expression that starts with an operand, behind which nothing binds. -/
theorem expression_of_nud {fuel bound : Nat} {top : SymbolId}
    (hnud : ((s.advance cStructs).symbol s.token).role.nud = some .itself)
    (hpower : (s.advance cStructs).current.role.bindingPower = 0)
    (h : expression cStructs fuel bound s = some (top, s₁)) :
    top = s.token ∧ s₁ = s.advance cStructs := by
  obtain ⟨fuel, s₂, rfl, hnull, hoperators⟩ := expression_cases h
  have hs₂ : s₂ = s.advance cStructs := by
    rcases nullDenotation_cases hnull with ⟨-, heq⟩ | ⟨hprefixed, -⟩ | ⟨hnone, -⟩
    · exact heq
    · cases hnud.symm.trans hprefixed
    · cases hnud.symm.trans hnone
  subst hs₂
  rcases operators_cases hoperators with ⟨-, heq⟩ | ⟨hbinds, -⟩
  · obtain ⟨htop, hs₁⟩ := Prod.ext_iff.1 heq
    exact ⟨htop, hs₁⟩
  · rw [hpower] at hbinds
    exact absurd hbinds (Nat.not_lt_zero bound)

theorem checkLength_of_clean (h : (s.checkLength id).Clean) :
    (s.symbol id).kind = .literal ∧ s.checkLength id = s := by
  unfold State.checkLength at h ⊢
  by_cases hliteral : (s.symbol id).kind = .literal
  · rw [if_pos hliteral]
    exact ⟨hliteral, rfl⟩
  · rw [if_neg hliteral] at h
    exact absurd h (not_clean_report s id _)

namespace State

/-! ## Where both readings are -/

/-- What was put in does not come in the part that ends in the state `s₁`. -/
def Quiet (k : Nat) (s s' s₁ : State) : Prop :=
  s'.symbols.size = s.symbols.size → s₁.symbols.size ≤ k

namespace Quiet

theorem first (h : Quiet k s s' s₁) (hle : s₂.symbols.size ≤ s₁.symbols.size) :
    Quiet k s s' s₂ :=
  fun hsize => Nat.le_trans hle (h hsize)

/-- What has been put in before a part of the source has been put in behind it. -/
theorem rest {s₂' : State} (h : Quiet k s s' s₁) (hphase : Phase k n s s')
    (hphase₂ : Phase k n s₂ s₂') (hle : s'.symbols.size ≤ s₂'.symbols.size) :
    Quiet k s₂ s₂' s₁ := by
  intro hsize
  cases hphase with
  | before _ _ _ hsame => exact h hsame
  | after hk hput =>
    cases hphase₂ with
    | before _ _ hk₂ => omega
    | after _ hput₂ => omega

theorem stay (h : Quiet k s s' s₁) (hphase : Phase k n s s')
    (hlt : s.symbols.size < s₁.symbols.size) :
    s.symbols.size < k ∨ s'.symbols.size = s.symbols.size + 3 := by
  cases hphase with
  | before _ _ _ hsame => exact .inl (Nat.lt_of_lt_of_le hlt (h hsame))
  | after _ hput => exact .inr hput

end Quiet

theorem Held.expect (h : Held k n s s' id) (text : String) :
    Held k n (s.expect cStructs text) (s'.expect cStructs text) id :=
  h.of_scopeAt (by rw [State.scopeAt, scopes_expect, State.scopeAt])
    (by rw [State.scopeAt, scopes_expect, State.scopeAt])

theorem Held.advance (h : Held k n s s' id) :
    Held k n (s.advance cStructs) (s'.advance cStructs) id :=
  h.of_scopeAt (by rw [State.scopeAt, scopes_advance, State.scopeAt])
    (by rw [State.scopeAt, scopes_advance, State.scopeAt])

namespace Abreast

variable (h : Abreast k n s s')
include h

theorem current_similar : Similar s.current s'.current := by
  rw [State.current, State.current, h.token]
  exact h.similar s.token h.spare.lt

theorem token_lt' : s'.token < s'.symbols.size := by
  rw [h.token]
  exact h.phase.moved_lt h.spare.lt

/-- Before the end, the token is passed for good. -/
theorem token_lt_advance (hend : s.endSymbol? = none) :
    s.token < (s.advance cStructs).token := by
  rw [token_advance hend]
  exact h.spare.lt

/-- What was read before the token stays so. -/
theorem lt_token {id : SymbolId} (hid : id < s.token) (h₁ : Abreast k n s₁ s₁')
    (hle : s.symbols.size ≤ s₁.symbols.size) : id < s₁.token := by
  rw [h.newest, h₁.newest] at hle
  exact Nat.lt_of_lt_of_le hid (Nat.le_of_succ_le_succ hle)

theorem check (id : String) : s'.check id = s.check id := by
  rw [State.check, h.current_similar.id, State.check]

theorem atClose : s'.atClose = s.atClose := by
  rw [State.atClose, h.check, h.check, State.atClose]

theorem not_end_of_check {id : String} (hid : s.check id = true) (hne : id ≠ endId) :
    s.endSymbol? = none := by
  apply h.endSymbol?_eq_none
  rw [State.check, beq_iff_eq] at hid
  rw [State.check, hid]
  exact beq_eq_false_iff_ne.2 hne

/-- Up to the symbol `k`, nothing that was put in has been read. -/
theorem size_eq (hle : s.symbols.size ≤ k) : s'.symbols.size = s.symbols.size := by
  cases h.phase with
  | before _ _ _ hsize => exact hsize
  | after hk hput =>
    have htoken := h.token
    have hnewest := h.newest
    have hnewest' := h.newest'
    have hlt : s.token < k := Nat.lt_of_lt_of_le h.spare.lt hle
    rw [moved_of_lt hlt] at htoken
    rw [htoken] at hnewest'
    omega

theorem not_end_of_name (hname : s.current.kind = .name) : s.endSymbol? = none := by
  by_contra hend
  rw [(h.ended hend).2] at hname
  cases hname

end Abreast

section Reading

variable (hget : cStructs.get? n = none)
include hget

/-- Both readings take the next symbol. -/
theorem Tracks.next (h : Tracks k n s s') (hend : s.endSymbol? = none)
    (hquiet : Quiet k s s' (s.advance cStructs)) (hclean : (s.advance cStructs).Clean) :
    Abreast k n (s.advance cStructs) (s'.advance cStructs) := by
  refine h.advance hget hend (hquiet.stay h.phase ?_) hclean
  rw [(h.sensible.advance hend hclean).2]
  exact Nat.lt_succ_self _

namespace Abreast

theorem expect (h : Abreast k n s s') {id : String} (hne : id ≠ endId)
    (hquiet : Quiet k s s' (s.expect cStructs id)) (hclean : (s.expect cStructs id).Clean) :
    Abreast k n (s.expect cStructs id) (s'.expect cStructs id) ∧
      s.token < (s.expect cStructs id).token := by
  obtain ⟨hcheck, heq⟩ := expect_of_clean hclean
  have hend := h.not_end_of_check hcheck hne
  rw [heq] at hquiet hclean ⊢
  rw [expect_of_check ((h.check id).trans hcheck)]
  exact ⟨h.toTracks.next hget hend hquiet hclean, h.token_lt_advance hend⟩

omit hget in
/-- An expression without a remark is one operand. -/
theorem expression_eq (h : Abreast k n s s') {fuel bound : Nat} {top : SymbolId}
    (hread : Parse.expression cStructs fuel bound s = some (top, s₁)) (hclean : s₁.Clean) :
    top = s.token ∧ s₁ = s.advance cStructs ∧ s.current.role.nud = some .itself ∧
      s.endSymbol? = none := by
  obtain ⟨rest, s₂, rfl, hnull, hoperators⟩ := expression_cases hread
  have hgrows := (grows_expression_operators cStructs rest).2 _ _ _ _ _ hoperators
  have hnud : ((s.advance cStructs).symbol s.token).role.nud = some .itself ∧
      (s.advance cStructs).Clean := by
    have hplain := (h.sensible.typical _ h.spare.lt).plain
    rcases nullDenotation_cases hnull with ⟨hnud, heq⟩ | ⟨hprefixed, -⟩ | ⟨-, heq⟩
    · rw [heq] at hgrows
      exact ⟨hnud, hgrows.clean hclean⟩
    · rw [symbol_advance h.spare.lt] at hprefixed
      exact absurd hprefixed hplain.2
    · rw [heq] at hgrows
      exact absurd (hgrows.clean hclean) (not_clean_report _ _ _)
  obtain ⟨hnud, hcleanNext⟩ := hnud
  have hcurrent : s.current.role.nud = some .itself := by
    rw [symbol_advance h.spare.lt] at hnud
    exact hnud
  -- the end is no operand
  have hend : s.endSymbol? = none := by
    by_contra hend
    have hnone : (cStructs.prototype endId).role.nud = none := by decide
    rw [(h.ended hend).1, hnone] at hcurrent
    cases hcurrent
  obtain ⟨hsensible, hsize⟩ := h.sensible.advance hend hcleanNext
  have hpower : (s.advance cStructs).current.role.bindingPower = 0 := by
    refine (hsensible.typical _ ?_).plain.1
    rw [token_advance hend, hsize]
    exact Nat.lt_succ_self _
  obtain ⟨htop, hs₁⟩ := expression_of_nud hnud hpower hread
  exact ⟨htop, hs₁, hcurrent, hend⟩

omit hget in
/-- The operand is the same in both readings, if nothing binds behind it. -/
theorem expression_eq' (h : Abreast k n s s') {fuel bound : Nat} {top : SymbolId}
    (hread' : Parse.expression cStructs fuel bound s' = some (top, s₁'))
    (hnud : s.current.role.nud = some .itself)
    (hpower : (s'.advance cStructs).current.role.bindingPower = 0) :
    top = moved k s.token ∧ s₁' = s'.advance cStructs := by
  have hnud' : ((s'.advance cStructs).symbol s'.token).role.nud = some .itself := by
    rw [symbol_advance h.token_lt', show s'.symbol s'.token = s'.current from rfl,
      h.current_similar.role]
    exact hnud
  rw [← h.token]
  exact expression_of_nud hnud' hpower hread'

/-- An expression without a remark is read in both readings. -/
theorem expression (h : Abreast k n s s') {fuel fuel' bound bound' : Nat} {top top' : SymbolId}
    (hread : Parse.expression cStructs fuel bound s = some (top, s₁))
    (hread' : Parse.expression cStructs fuel' bound' s' = some (top', s₁'))
    (hquiet : Quiet k s s' s₁) (hclean : s₁.Clean) :
    Abreast k n s₁ s₁' ∧ top = s.token ∧ top' = moved k s.token ∧ s₁ = s.advance cStructs ∧
      s₁' = s'.advance cStructs ∧ s.token < s₁.token := by
  obtain ⟨rfl, rfl, hnud, hend⟩ := h.expression_eq hread hclean
  have hnext := h.toTracks.next hget hend hquiet hclean
  have hpower : (s.advance cStructs).current.role.bindingPower = 0 :=
    (hnext.sensible.typical _ hnext.spare.lt).plain.1
  obtain ⟨rfl, rfl⟩ := h.expression_eq' hread' hnud
    (by rw [hnext.current_similar.role]; exact hpower)
  exact ⟨hnext, rfl, rfl, rfl, rfl, h.token_lt_advance hend⟩

/-! ## Members -/

/-- The length of an array is read in both readings, and the member gets to know it. -/
theorem dimension (h : Abreast k n s s') (hheld : Held k n s s' name) (hlt : name < s.token)
    (hread : Parse.dimension cStructs name s = some s₁)
    (hread' : Parse.dimension cStructs (moved k name) s' = some s₁')
    (hquiet : Quiet k s s' s₁) (hclean : s₁.Clean) : Abreast k n s₁ s₁' := by
  obtain ⟨length, s₂, h₂, rfl⟩ := dimension_cases hread
  obtain ⟨length', s₂', h₂', rfl⟩ := dimension_cases hread'
  have hcleanBracket : ((s₂.checkLength length).expect cStructs "]").Clean :=
    (grows_modifySymbol _ _ _).clean hclean
  have hcleanLength : (s₂.checkLength length).Clean := (grows_expect _ _ _).clean hcleanBracket
  obtain ⟨hliteral, heq⟩ := checkLength_of_clean hcleanLength
  rw [heq] at hcleanLength hcleanBracket
  have hsize : (((s₂.checkLength length).expect cStructs "]").modifyDeclaration name
      ({ · with dimension? := some length })).symbols.size =
        (s₂.expect cStructs "]").symbols.size := by
    rw [heq, State.modifyDeclaration, State.modifySymbol, Array.size_modify]
  have hle := (Trace.expect (t := cStructs) "]" s₂).spares.size_le
  have hle' := (Trace.of_expression h₂').spares.size_le
  obtain ⟨hoperand, rfl, rfl, hs₂, hs₂', htoken⟩ := h.expression hget h₂ h₂'
    (hquiet.first (by rw [hsize]; exact hle)) hcleanLength
  -- the length is alike on both sides, so it is a literal on the other one as well
  have hliteral' : (s₂'.symbol (moved k s.token)).kind = .literal := by
    rw [(hoperand.similar s.token (Nat.lt_trans htoken hoperand.spare.lt)).kind]
    exact hliteral
  have heq' : s₂'.checkLength (moved k s.token) = s₂' := by
    rw [State.checkLength, if_pos hliteral']
  rw [heq, heq']
  have hquiet₂ : Quiet k s₂ s₂' (s₂.expect cStructs "]") :=
    (hquiet.first (Nat.le_of_eq hsize.symm)).rest h.phase hoperand.phase hle'
  obtain ⟨hbracket, htoken₂⟩ := hoperand.expect hget (by decide) hquiet₂ hcleanBracket
  have hne : (s₂.expect cStructs "]").token ≠ name :=
    Nat.ne_of_gt (Nat.lt_trans hlt (Nat.lt_trans htoken htoken₂))
  have hheld₂ : Held k n s₂ s₂' name := by
    rw [hs₂, hs₂']
    exact hheld.advance
  have hdimension : Tracks k n
      ((s₂.expect cStructs "]").modifyDeclaration name ({ · with dimension? := some s.token }))
      ((s₂'.expect cStructs "]").modifyDeclaration (moved k name)
        ({ · with dimension? := some (moved k s.token) })) :=
    hbracket.toTracks.modifyDeclaration (hheld₂.expect "]") (fun _ => rfl) fun _ => rfl
  exact hbracket.aside hdimension (.modifyDeclaration (P := (· = name)) rfl _)
    (.modifyDeclaration (P := (· = moved k name)) rfl _) hne (moved_ne hne)

omit hget in
/-- What is not a name does not declare a member without a remark. -/
theorem kind_of_declarator (hread : Parse.declarator cStructs keyword s = some s₁)
    (hclean : s₁.Clean) : s.current.kind = .name := by
  by_contra hname
  have hreport : ¬(s.report s.token .memberNameMissing).Clean := not_clean_report _ _ _
  unfold Parse.declarator at hread
  rw [if_neg hname] at hread
  dsimp only at hread
  cases hread
  split at hclean
  · exact hreport hclean
  · exact hreport ((grows_advance _ _).clean hclean)

/-- What stands behind the name of a member is read in both readings. -/
theorem declaratorRest (h : Abreast k n s s') (hheld : Held k n s s' name) (hlt : name < s.token)
    (hread : (if s.check "[" then Parse.dimension cStructs name (s.advance cStructs)
      else some s) = some s₁)
    (hread' : (if s'.check "[" then Parse.dimension cStructs (moved k name) (s'.advance cStructs)
      else some s') = some s₁')
    (hquiet : Quiet k s s' s₁) (hclean : s₁.Clean) : Abreast k n s₁ s₁' := by
  rw [h.check] at hread'
  split at hread
  · rename_i hbracket
    rw [if_pos hbracket] at hread'
    have hend := h.not_end_of_check hbracket (by decide)
    have hopen := h.toTracks.next hget hend
      (hquiet.first (Trace.of_dimension hread).spares.size_le) ((grows_dimension hread).clean hclean)
    exact hopen.dimension hget hheld.advance (Nat.lt_trans hlt (h.token_lt_advance hend)) hread hread'
      (hquiet.rest h.phase hopen.phase size_le_advance) hclean
  · rename_i hbracket
    rw [if_neg hbracket] at hread'
    cases hread
    cases hread'
    exact h

/-- A member is declared in both readings. -/
theorem declarator (h : Abreast k n s s') (hscope : s.scope ≠ 0)
    (hread : Parse.declarator cStructs keyword s = some s₁)
    (hread' : Parse.declarator cStructs (moved k keyword) s' = some s₁')
    (hquiet : Quiet k s s' s₁) (hclean : s₁.Clean) : Abreast k n s₁ s₁' := by
  have hname := kind_of_declarator hread hclean
  unfold Parse.declarator at hread hread'
  rw [h.current_similar.kind, if_pos hname] at hread'
  rw [if_pos hname] at hread
  dsimp only at hread hread'
  have hrest : ((s.define s.token keyword).advance cStructs).Grows s₁ ∧
      Trace cStructs ((s.define s.token keyword).advance cStructs) s₁ := by
    split at hread
    · exact ⟨(grows_advance _ _).trans (grows_dimension hread),
        (Trace.advance _).trans (.of_dimension hread)⟩
    · cases hread
      exact ⟨.refl _, .refl _⟩
  have hcleanName := hrest.1.clean hclean
  have hcleanDefine := (grows_advance cStructs _).clean hcleanName
  -- inside a struct, neither `struct` nor `n` is in the way of a member
  have hdefine := h.toTracks.define h.spare hname (fun hzero => absurd hzero hscope) hcleanDefine
  have hheld := h.toTracks.held_define h.spare (fun hzero => absurd hzero hscope) hcleanDefine
  have hsize' := (Aside.define s' (moved k s.token) (moved k keyword)).size
  have hend : (s.define s.token keyword).endSymbol? = none := by
    rw [endSymbol?_define]
    exact h.not_end_of_name hname
  have hquietName : Quiet k (s.define s.token keyword)
      (s'.define (moved k s.token) (moved k keyword)) s₁ :=
    hquiet.rest h.phase hdefine.phase (Nat.le_of_eq hsize'.symm)
  have hnext := hdefine.next hget hend (hquietName.first hrest.2.spares.size_le) hcleanName
  have hlt : s.token < ((s.define s.token keyword).advance cStructs).token := by
    rw [token_advance hend, (Aside.define s s.token keyword).size]
    exact h.spare.lt
  rw [h.token] at hread'
  exact hnext.declaratorRest hget hheld.advance hlt hread hread'
    (hquietName.rest hdefine.phase hnext.phase size_le_advance) hclean

theorem declarators (h : Abreast k n s s') {fuel fuel' : Nat} (hscope : s.scope ≠ 0)
    (hread : Parse.declarators cStructs keyword fuel s = some s₁)
    (hread' : Parse.declarators cStructs (moved k keyword) fuel' s' = some s₁')
    (hquiet : Quiet k s s' s₁) (hclean : s₁.Clean) : Abreast k n s₁ s₁' := by
  -- on the fuel of the first reading; the second one sees the same commas
  induction fuel using Nat.strongRecOn generalizing s s' fuel' with
  | ind fuel ih =>
    obtain ⟨s₂, h₂, hcases⟩ := declarators_cases hread
    obtain ⟨s₂', h₂', hcases'⟩ := declarators_cases hread'
    have hrest : s₂.Grows s₁ ∧ Trace cStructs s₂ s₁ := by
      rcases hcases with ⟨-, rfl⟩ | ⟨-, rest, -, hrest⟩
      · exact ⟨.refl _, .refl _⟩
      · exact ⟨(grows_advance _ _).trans (grows_declarators hrest),
          (Trace.advance _).trans (.of_declarators hrest)⟩
    have hfirst := h.declarator hget hscope h₂ h₂' (hquiet.first hrest.2.spares.size_le)
      (hrest.1.clean hclean)
    have hquietRest := hquiet.rest h.phase hfirst.phase (Trace.of_declarator h₂').spares.size_le
    have hscope₂ : s₂.scope ≠ 0 := by
      rw [(Trace.of_declarator h₂).within.scope]
      exact hscope
    rcases hcases with ⟨hcomma, rfl⟩ | ⟨hcomma, rest, rfl, hrest⟩
    · rcases hcases' with ⟨-, rfl⟩ | ⟨hcomma', -⟩
      · exact hfirst
      · rw [hfirst.check, hcomma] at hcomma'
        cases hcomma'
    · rcases hcases' with ⟨hcomma', -⟩ | ⟨-, rest', -, hrest'⟩
      · rw [hfirst.check, hcomma] at hcomma'
        cases hcomma'
      · have hnext := hfirst.toTracks.next hget (hfirst.not_end_of_check hcomma (by decide))
          (hquietRest.first (Trace.of_declarators hrest).spares.size_le)
          ((grows_declarators hrest).clean hclean)
        exact ih rest (Nat.lt_succ_self rest) hnext (by rw [scope_advance.1]; exact hscope₂) hrest
          hrest' (hquietRest.rest hfirst.phase hnext.phase size_le_advance)

/-- The members behind a type keyword are declared in both readings. -/
theorem members (h : Abreast k n s s') (hread : Parse.members cStructs keyword s = some s₁)
    (hread' : Parse.members cStructs (moved k keyword) s' = some s₁')
    (hquiet : Quiet k s s' s₁) (hclean : s₁.Clean) : Abreast k n s₁ s₁' := by
  unfold Parse.members at hread hread'
  rw [h.isGlobal] at hread'
  split at hread
  · cases hread
    exact absurd hclean (not_clean_report s _ _)
  · rename_i hglobal
    rw [if_neg hglobal] at hread'
    obtain ⟨s₂, h₂, rfl⟩ := Option.map_eq_some_iff.1 hread
    obtain ⟨s₂', h₂', rfl⟩ := Option.map_eq_some_iff.1 hread'
    have hscope : s.scope ≠ 0 := fun hzero => hglobal (h.isGlobal_iff.2 hzero)
    cases hclose : s₂.atClose with
    | true =>
      rw [hclose, if_pos rfl] at hclean
      exact absurd hclean (not_clean_report s₂ _ _)
    | false =>
      rw [hclose] at hquiet hclean
      rw [if_neg Bool.false_ne_true] at hquiet hclean ⊢
      have hall := h.declarators hget hscope h₂ h₂'
        (hquiet.first (Trace.expect (t := cStructs) ";" s₂).spares.size_le)
        ((grows_expect _ _ _).clean hclean)
      rw [hall.atClose, hclose, if_neg Bool.false_ne_true]
      exact (hall.expect hget (by decide)
        (hquiet.rest h.phase hall.phase (Trace.of_declarators h₂').spares.size_le) hclean).1

end Abreast

end Reading

end State

end CStruct.Parse
