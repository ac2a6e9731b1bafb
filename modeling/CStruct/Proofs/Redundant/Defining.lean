import CStruct.Proofs.Declared.Kept
import CStruct.Proofs.Redundant.Reserving

/-!
# Names in both readings

A name that is defined in both readings stands for the same symbol in both from then on, also where
it takes the place of the forward declaration that was put in. A struct that is declared ahead in
the first reading alone leaves the name to that forward declaration in the second.
-/

namespace CStruct.Parse.State

open SymbolTable

variable {k : Nat} {n : String} {s s' s₁ s₁' : State} {id name type tag : SymbolId}

/-! ## Changes to what is known of a name -/

/-- If `n` stands for the symbol in the first reading, it does not stand for what was put in. -/
def Held (k : Nat) (n : String) (s s' : State) (id : SymbolId) : Prop :=
  (s.scopeAt 0).get? n = some id → (s'.scopeAt 0).get? n ≠ some (k + 1)

theorem Held.of_scopeAt (h : Held k n s s' id) (hs : s₁.scopeAt 0 = s.scopeAt 0)
    (hs' : s₁'.scopeAt 0 = s'.scopeAt 0) : Held k n s₁ s₁' id := by
  unfold Held
  rw [hs, hs']
  exact h

/-- Binding the symbol itself in both readings. -/
theorem held_bind_self (hscope : s'.scope = s.scope) (hlt : s.scope < s.scopes.size)
    (hlt' : s'.scope < s'.scopes.size) (hid : (s.scopeAt 0).get? n ≠ some id) (value : String) :
    Held k n (s.bind value id) (s'.bind value (moved k id)) id := by
  intro hself
  rw [get?_bind hlt] at hself
  rw [get?_bind hlt', hscope]
  split at hself
  · rename_i hopen
    rw [if_pos hopen]
    exact fun hput => moved_ne_put k id (Option.some.inj hput)
  · exact absurd hself hid

/-- Binding another symbol in both readings. -/
theorem Held.bind (h : Held k n s s' id) (hscope : s'.scope = s.scope)
    (hlt : s.scope < s.scopes.size) (hlt' : s'.scope < s'.scopes.size) (hne : name ≠ id)
    (value : String) : Held k n (s.bind value name) (s'.bind value (moved k name)) id := by
  intro hself
  rw [get?_bind hlt] at hself
  rw [get?_bind hlt', hscope]
  split at hself
  · exact absurd (Option.some.inj hself) hne
  · rename_i hopen
    rw [if_neg hopen]
    exact h hself

namespace Tracks

/-- What is known of a name changes in both readings. -/
theorem modifyDeclaration (h : Tracks k n s s') (hheld : Held k n s s' id)
    {f f' : Declaration → Declaration} (htype : ∀ d, (f d).declaredType = d.declaredType)
    (hmoved : ∀ d, f' (d.moved k) = (f d).moved k) :
    Tracks k n (s.modifyDeclaration id f) (s'.modifyDeclaration (moved k id) f') := by
  have hgentle (f : Declaration → Declaration) :
      Gentle fun x => { x with declaration? := x.declaration?.map f } :=
    ⟨fun _ => rfl, fun _ => rfl, fun x hx => by show x.declaration?.map f = none; rw [hx]; rfl⟩
  refine h.modify id (hgentle f) (hgentle f') ?_ ?_ ?_ ?_ ?_
  · exact h.sensible.modifySymbol id rfl (fun hkind => hkind)
      fun htypical => ⟨htypical.role, htypical.id⟩
  · exact fun _ _ hsimilar => ⟨hsimilar.id, hsimilar.role, hsimilar.value, hsimilar.kind⟩
  · intro x x' hmatches
    refine ⟨⟨hmatches.id, hmatches.role, hmatches.value, hmatches.kind⟩, hmatches.reserved, ?_⟩
    show x'.declaration?.map f' = (x.declaration?.map f).map (Declaration.moved k)
    rw [hmatches.declaration?]
    cases x.declaration? with
    | none => rfl
    | some d => exact congrArg some (hmoved d)
  -- a struct stays one, as its type stays the same
  · intro hstruct
    obtain ⟨hdeclared, hkeyword⟩ := Bool.and_eq_true_iff.1 hstruct
    refine Bool.and_eq_true_iff.2 ⟨?_, ?_⟩
    · exact (isDeclaration_modifyDeclaration s id id f).trans hdeclared
    · show (((s.modifyDeclaration id f).symbol id).declaredType?.any _) = true
      rw [State.modifyDeclaration, symbol_modifySymbol_self
        (lt_of_isDeclaration hdeclared), Symbol.declaredType?]
      rw [Symbol.declaredType?] at hkeyword
      cases hd : (s.symbol id).declaration? with
      | none =>
        rw [hd] at hkeyword
        cases hkeyword
      | some d =>
        rw [hd] at hkeyword
        show State.isStructKeyword _ (f d).declaredType = true
        rw [htype]
        exact isStructKeyword_modifySymbol
          (f := fun x => { x with declaration? := x.declaration?.map f })
          (fun _ => rfl) hkeyword
  · exact fun hid hput => absurd hput (hheld hid)

/-- A struct gets its body in both readings. -/
theorem setBody (h : Tracks k n s s') (hheld : Held k n s s' tag) (body : ScopeId) :
    Tracks k n (s.setBody tag body) (s'.setBody (moved k tag) body) :=
  h.modifyDeclaration hheld (fun _ => rfl) fun _ => rfl

/-! ## Definitions -/

theorem sensible_declare (h : s.Sensible) (hkind : (s.symbol name).kind ≠ .literal)
    (type : SymbolId) : (s.declare name type).Sensible :=
  h.modifySymbol name rfl (fun _ => SymbolKind.noConfusion) fun htypical =>
    ⟨.inl rfl, fun _ => htypical.id hkind⟩

/-- A loose name is declared in both readings. -/
theorem declare (h : Tracks k n s s') (hname : Spare k s s' name)
    (hkind : (s.symbol name).kind ≠ .literal) (type : SymbolId) :
    Tracks k n (s.declare name type) (s'.declare (moved k name) (moved k type)) :=
  h.modify_unbound hname.left.unbound hname.right.unbound (fun _ => rfl) (fun _ => rfl)
    (sensible_declare h.sensible hkind type)
    fun hsimilar => ⟨hsimilar.id, rfl, hsimilar.value, rfl⟩

end Tracks

/-- A name is free, or it completes a forward declaration. -/
def MayDefine (s : State) (name type : SymbolId) : Prop :=
  ∀ existing, s.local? (s.symbol name).value = some existing →
    s.completesForward existing type = true

theorem define_eq_bind (hfree : s.MayDefine name type) :
    s.define name type = (s.declare name type).bind (s.symbol name).value name := by
  have hknown : (s.local? (s.symbol name).value).any
      (fun existing => !s.completesForward existing type) = false := by
    cases hlocal : s.local? (s.symbol name).value with
    | none => rfl
    | some existing => rw [Option.any_some, hfree existing hlocal, Bool.not_true]
  unfold define
  dsimp only
  rw [hknown, if_neg Bool.false_ne_true]

theorem KeywordAt.not_completesForward (h : s.KeywordAt id) (type : SymbolId) :
    s.completesForward id type = false := by
  have hstruct : s.isStruct id = false :=
    Bool.eq_false_iff.2 fun hstruct =>
      not_isDeclaration h.undeclared (isDeclaration_of_isStruct hstruct)
  rw [completesForward, hstruct, Bool.false_and, Bool.false_and, Bool.false_and]

theorem Ahead.completesForward (h : s.Ahead id) (htype : s.isStructKeyword type = true) :
    s.completesForward id type = true := by
  rw [State.completesForward, h.forward.struct, h.forward.innerScope?, h.forward.isAlias, htype]
  rfl

/-- In the outermost scope, names are declared with `struct` only, which has been reserved. -/
structure AtRoot (s : State) (type : SymbolId) : Prop where
  struct : s.isStructKeyword type = true
  keyword : ((s.scopeAt 0).get? structKeyword).isSome = true

namespace Tracks

theorem value_ne_struct (h : Tracks k n s s') (hroot : s.AtRoot type) (hscope : s.scope = 0)
    (hfree : s.MayDefine name type) : (s.symbol name).value ≠ structKeyword := by
  intro hvalue
  obtain ⟨id, hid⟩ := Option.isSome_iff_exists.1 hroot.keyword
  have hcompletes := hfree id (by rw [local?, hscope, hvalue, hid])
  rw [(h.keywords.left id hid).not_completesForward] at hcompletes
  cases hcompletes

/-- A name that can be defined in the first reading can be defined in the second. -/
theorem free (h : Tracks k n s s') (hroot : s.scope = 0 → s.AtRoot type)
    (hfree : s.MayDefine name type) : s'.MayDefine (moved k name) (moved k type) := by
  intro existing' hlocal'
  rw [local?, h.scope, h.value] at hlocal'
  have hsame (hsame : SameEntry k s s' s.scope (s.symbol name).value) :
      s'.completesForward existing' (moved k type) = true := by
    rw [hsame.entry, Option.map_eq_some_iff] at hlocal'
    obtain ⟨existing, hlocal, rfl⟩ := hlocal'
    rw [h.completesForward type (hsame.matching existing hlocal)]
    exact hfree existing hlocal
  by_cases hscope : s.scope = 0
  · by_cases hn : (s.symbol name).value = n
    · rcases h.own with ⟨hown, -⟩ | ⟨hput, hahead', -⟩
      · exact hsame (by rw [hscope, hn]; exact hown)
      · -- it completes the forward declaration that was put in
        rw [hscope, hn, hput] at hlocal'
        cases hlocal'
        exact hahead'.completesForward (by rw [h.isStructKeyword]; exact (hroot hscope).struct)
    · exact hsame (h.same _ _ fun _ => ⟨hn, h.value_ne_struct (hroot hscope) hscope hfree⟩)
  · exact hsame (h.same _ _ fun hzero => absurd hzero hscope)

/-- A name is defined in both readings. -/
theorem define (h : Tracks k n s s') (hname : Spare k s s' name)
    (hkind : (s.symbol name).kind = .name) (hroot : s.scope = 0 → s.AtRoot type)
    (hclean : (s.define name type).Clean) :
    Tracks k n (s.define name type) (s'.define (moved k name) (moved k type)) := by
  obtain ⟨hfree, heq⟩ := define_of_clean hclean
  have hliteral : (s.symbol name).kind ≠ .literal := by
    rw [hkind]
    exact SymbolKind.noConfusion
  have hdeclare := h.declare hname hliteral type
  have hself : (s.declare name type).symbol name = _ := symbol_declare hname.lt
  have hself' : (s'.declare (moved k name) (moved k type)).symbol (moved k name) = _ :=
    symbol_declare (h.phase.moved_lt hname.lt)
  have hlt : name < (s.declare name type).symbols.size := by
    rw [State.declare, State.modifySymbol, Array.size_modify]
    exact hname.lt
  have hsimilar := h.similar name hname.lt
  rw [heq, define_eq_bind (h.free hroot hfree), h.value]
  have hbind := hdeclare.bind hlt ?_ ?_ ?_ ?_
  · rw [hself] at hbind
    exact hbind
  · rw [hself]
    exact SymbolKind.noConfusion
  · rw [hself, hself']
    exact ⟨⟨hsimilar.id, rfl, hsimilar.value, rfl⟩, rfl, rfl⟩
  · intro hscope hvalue
    rw [hself] at hvalue
    exact absurd hvalue (h.value_ne_struct (hroot hscope) hscope hfree)
  · intro hscope _
    refine Bool.and_eq_true_iff.2 ⟨by rw [hself]; rfl, ?_⟩
    rw [hself]
    exact isStructKeyword_modifySymbol (s := s) (fun _ => rfl) (hroot hscope).struct

/-- A name that has just been defined holds its place. -/
theorem held_define (h : Tracks k n s s') (hname : Spare k s s' name)
    (hroot : s.scope = 0 → s.AtRoot type) (hclean : (s.define name type).Clean) :
    Held k n (s.define name type) (s'.define (moved k name) (moved k type)) name := by
  obtain ⟨hfree, heq⟩ := define_of_clean hclean
  rw [heq, define_eq_bind (h.free hroot hfree), h.value]
  exact held_bind_self (s := s.declare name type) h.scope h.scope_lt h.scope_lt'
    (hname.left.unbound 0 n) _

end Tracks

/-! ## Typedef names -/

theorem defineAlias_eq_bind (hlocal : s.local? (s.symbol name).value = none) :
    s.defineAlias name type tag =
      ((s.declareAlias name type).bind (s.symbol name).value name).tie tag name := by
  unfold defineAlias
  dsimp only
  rw [hlocal]
  rfl

namespace Tracks

/-- The typedef name of a struct is defined in both readings, but for one that is spelled `n` in the
outermost scope. -/
theorem defineAlias (h : Tracks k n s s') (hname : Spare k s s' name)
    (hkind : (s.symbol name).kind = .name) (hheld : Held k n s s' tag) (hne : name ≠ tag)
    (hroot : s.scope = 0 → s.AtRoot type ∧ (s.symbol name).value ≠ n)
    (hclean : (s.defineAlias name type tag).Clean) :
    Tracks k n (s.defineAlias name type tag)
      (s'.defineAlias (moved k name) (moved k type) (moved k tag)) := by
  obtain ⟨hfree, heq⟩ := defineAlias_of_clean hclean
  have hvalue (hscope : s.scope = 0) : (s.symbol name).value ≠ structKeyword :=
    h.value_ne_struct (hroot hscope).1 hscope
      fun existing hlocal => by rw [hfree] at hlocal; cases hlocal
  have hsame : SameEntry k s s' s.scope (s.symbol name).value :=
    h.same _ _ fun hscope => ⟨(hroot hscope).2, hvalue hscope⟩
  have hfree' : s'.local? (s'.symbol (moved k name)).value = none := by
    rw [local?, h.scope, h.value, hsame.entry, show (s.scopeAt s.scope).get? _ = none from hfree]
    rfl
  have hliteral : (s.symbol name).kind ≠ .literal := by
    rw [hkind]
    exact SymbolKind.noConfusion
  -- the typedef name is declared, marked, entered, and then tied to the tag
  have hdeclare := h.declare hname hliteral type
  have hmark : Tracks k n (s.declareAlias name type)
      (s'.declareAlias (moved k name) (moved k type)) :=
    hdeclare.modifyDeclaration (fun hid => absurd hid (hname.left.unbound 0 n)) (fun _ => rfl)
      fun _ => rfl
  have hself := Upholds.symbol_declareAlias hname.lt type
  have hself' := Upholds.symbol_declareAlias (h.phase.moved_lt hname.lt) (moved k type)
  have hlt : name < (s.declareAlias name type).symbols.size := by
    rw [State.declareAlias, State.modifyDeclaration, State.modifySymbol, Array.size_modify,
      State.declare, State.modifySymbol, Array.size_modify]
    exact hname.lt
  have hsimilar := h.similar name hname.lt
  rw [heq, defineAlias_eq_bind hfree', h.value]
  have hbind := hmark.bind hlt ?_ ?_ ?_ ?_
  · rw [hself] at hbind
    refine hbind.modifyDeclaration ?_ (fun _ => rfl) fun _ => rfl
    exact Held.bind (s := s.declareAlias name type) hheld h.scope h.scope_lt h.scope_lt' hne _
  · rw [hself]
    exact SymbolKind.noConfusion
  · rw [hself, hself']
    exact ⟨⟨hsimilar.id, rfl, hsimilar.value, rfl⟩, rfl, rfl⟩
  · intro hscope hstruct
    rw [hself] at hstruct
    exact absurd hstruct (hvalue hscope)
  · intro hscope hn
    rw [hself] at hn
    exact absurd hn (hroot hscope).2

end Tracks

/-! ## Forward declarations -/

/-- A struct that has just been declared ahead of its body. -/
theorem ahead_declare (hname : name < s.symbols.size) (htype : s.isStructKeyword type = true)
    (hid : (s.symbol name).id = nameId) : (s.declare name type).Ahead name := by
  have hself : (s.declare name type).symbol name = _ := symbol_declare hname
  refine ⟨by rw [State.declare, State.modifySymbol, Array.size_modify]; exact hname,
    ⟨?_, by rw [hself]; rfl, by rw [hself]; rfl⟩, ?_⟩
  · refine Bool.and_eq_true_iff.2 ⟨by rw [hself]; rfl, ?_⟩
    rw [hself]
    exact isStructKeyword_modifySymbol (s := s) (fun _ => rfl) htype
  · rw [hself]
    show Prototype.mk (s.symbol name).id _ _ = _
    rw [hid]

/-- What a name of the outermost scope is once it has been bound. -/
theorem get?_bind_root (hlt : s.scope < s.scopes.size) (hroot : s.scope = 0) (id : SymbolId)
    (name other : String) : ((s.bind name id).scopeAt 0).get? other =
      if other = name then some id else (s.scopeAt 0).get? other := by
  rw [get?_bind hlt]
  by_cases hother : other = name
  · rw [if_pos ⟨hroot.symm, hother⟩, if_pos hother]
  · rw [if_neg fun h => hother h.2, if_neg hother]

theorem id_of_get? {x : Symbol} (hx : Typical x) (hkind : x.kind ≠ .literal)
    (hget : cStructs.get? x.value = none) : x.id = nameId := by
  rw [hx.id hkind, wordPrototype, hget]
  decide

namespace Tracks

/-- The first reading declares `n` ahead, which the second has declared already. -/
theorem define_left (hget : cStructs.get? n = none) (hn : n ≠ structKeyword)
    (h : Tracks k n s s') (hscope : s.scope = 0) (hname : Spare k s s' name)
    (hkind : (s.symbol name).kind = .name) (hvalue : (s.symbol name).value = n)
    (htype : s.isStructKeyword type = true) (hnew : (s.scopeAt 0).get? n = none)
    (hput : (s'.scopeAt 0).get? n = some (k + 1)) (hahead' : s'.Ahead (k + 1)) :
    Tracks k n (s.define name type) s' := by
  have hliteral : (s.symbol name).kind ≠ .literal := by
    rw [hkind]
    exact SymbolKind.noConfusion
  have htypical := h.sensible.typical name hname.lt
  have hrole := htypical.role_of_get? (by rw [hvalue, hget])
  have hid := id_of_get? htypical hliteral (by rw [hvalue, hget])
  have heq : s.define name type = (s.declare name type).bind n name := by
    rw [← hvalue]
    refine define_eq_bind fun existing hlocal => ?_
    rw [local?, hscope, hvalue, hnew] at hlocal
    cases hlocal
  -- declaring alone is seen by no entry, so it needs nothing on the other side
  have hdeclare : Tracks k n (s.declare name type) s' := by
    refine h.unnamed (.modifySymbol hname.left.unbound fun _ => rfl) (.refl s')
      (h.phase.of_eq Array.size_modify rfl rfl rfl rfl rfl) h.clean
      (sensible_declare h.sensible hliteral type) fun i hi => ?_
    rw [State.declare, State.modifySymbol, Array.size_modify] at hi
    have hsimilar := h.similar i hi
    rw [State.declare, Parse.symbol_modifySymbol]
    split
    · rename_i heq
      obtain ⟨rfl, -⟩ := heq
      exact ⟨hsimilar.id, hsimilar.role.trans hrole, hsimilar.value, hsimilar.kind.trans hkind⟩
    · exact hsimilar
  have hahead := ahead_declare hname.lt htype hid
  have hself : (s.declare name type).symbol name = _ := symbol_declare hname.lt
  have hentry := get?_bind_root (s := s.declare name type) h.scope_lt hscope name n
  rw [heq]
  -- then only the entry of `n` differs, and both entries are declared ahead
  refine hdeclare.rebinds (Rebinds.bind (s := s.declare name type) hscope (.inl rfl) name)
    (.refl s') ?_ ?_ (.inr ⟨hput, hahead', ?_⟩)
  · have hsensible := hdeclare.sensible.bind hahead.lt (by rw [hself]; exact SymbolKind.noConfusion)
    rw [hself] at hsensible
    show ((s.declare name type).bind n name).Sensible
    rw [← hvalue]
    exact hsensible
  · refine ⟨fun i hi => ?_, h.keywords.right, fun hsome => ?_⟩
    · rw [hentry, if_neg (Ne.symm hn)] at hi
      exact (hdeclare.keywords.left i hi).of_eq (Nat.le_refl _) rfl
    · rw [hentry, if_neg (Ne.symm hn)] at hsome
      exact hdeclare.keywords.isSome hsome
  · intro i hi
    rw [hentry, if_pos rfl] at hi
    cases hi
    exact hahead.of_eq (Nat.le_refl _) rfl fun _ hi => hi

/-- The forward declaration that was put in is the first of `n`. -/
theorem define_right (hn : n ≠ structKeyword) (h : Tracks k n s s') (hscope : s.scope = 0)
    (hput : s'.Loose (k + 1)) (hlt : k + 1 < s'.symbols.size)
    (hvalue : (s'.symbol (k + 1)).value = n) (hid : (s'.symbol (k + 1)).id = nameId)
    (htype : s'.isStructKeyword type = true)
    (hnew : (s.scopeAt 0).get? n = none) (hnew' : (s'.scopeAt 0).get? n = none) :
    Tracks k n s (s'.define (k + 1) type) := by
  have heq : s'.define (k + 1) type = (s'.declare (k + 1) type).bind n (k + 1) := by
    rw [← hvalue]
    refine define_eq_bind fun existing hlocal => ?_
    rw [local?, h.scope, hscope, hvalue, hnew'] at hlocal
    cases hlocal
  -- no symbol of the first reading answers to the one that was put in
  have hdeclare : Tracks k n s (s'.declare (k + 1) type) := by
    refine h.unnamed (.refl s) (.modifySymbol hput.unbound fun _ => rfl)
      (h.phase.of_eq rfl Array.size_modify rfl rfl rfl rfl) h.clean h.sensible fun i hi => ?_
    rw [State.declare, symbol_modifySymbol_of_ne (moved_ne_put k i)]
    exact h.similar i hi
  have hahead := ahead_declare hlt htype hid
  have hroot' : (s'.declare (k + 1) type).scope = 0 := h.scope.trans hscope
  have hentry := get?_bind_root (s := s'.declare (k + 1) type) h.scope_lt' hroot' (k + 1) n
  rw [heq]
  refine hdeclare.rebinds (.refl s) (.bind hroot' (.inl rfl) (k + 1)) h.sensible ?_
    (.inr ⟨?_, ?_, ?_⟩)
  · refine ⟨h.keywords.left, fun i hi => ?_, fun hsome => ?_⟩
    · rw [hentry, if_neg (Ne.symm hn)] at hi
      exact (hdeclare.keywords.right i hi).of_eq (Nat.le_refl _) rfl
    · rw [hentry, if_neg (Ne.symm hn)]
      exact hdeclare.keywords.isSome hsome
  · rw [hentry, if_pos rfl]
  · exact hahead.of_eq (Nat.le_refl _) rfl fun _ hi => hi
  · intro i hi
    rw [hnew] at hi
    cases hi

end Tracks

end CStruct.Parse.State
