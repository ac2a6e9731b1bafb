import CStruct.Proofs.Redundant.Aside

/-!
# Keywords in both readings

A keyword is reserved in both readings, with one exception: `struct` may have been reserved in the
outermost scope of the second one, because of what was put in, before it is in the first.
-/

namespace CStruct.Parse

open SymbolTable State

/-- What starts a statement is no literal, and its spelling is in the table with its prototype. -/
theorem Typical.table_of_std {x : Symbol} (h : Typical x) {std : StatementDenotation}
    (hstd : x.role.std = some std) :
    ∃ p, cStructs.get? x.value = some p ∧ x.id = p.id ∧ x.role = p.role ∧ x.kind ≠ .literal := by
  obtain ⟨hkind, hid, hrole⟩ := h.of_std hstd
  cases hget : cStructs.get? x.value with
  | none =>
    rw [h.role_of_get? hget] at hstd
    cases hstd
  | some p =>
    rw [wordPrototype, hget] at hid hrole
    exact ⟨p, rfl, hid, hrole, hkind⟩

namespace State

variable {k : Nat} {n : String} {s s' s₁ s₁' : State} {keyword : SymbolId}
  {std : StatementDenotation}

/-! ## Changes to what `n` and `struct` stand for -/

/-- A change to what `n` and `struct` stand for in the outermost scope. -/
structure Rebinds (n : String) (s s₁ : State) : Prop where
  symbols : s₁.symbols = s.symbols
  pending : s₁.pending = s.pending
  endSymbol? : s₁.endSymbol? = s.endSymbol?
  scope : s₁.scope = s.scope
  outer : s₁.outer = s.outer
  diagnostics : s₁.diagnostics = s.diagnostics
  size : s₁.scopes.size = s.scopes.size
  scopeAt : ∀ c ≠ 0, s₁.scopeAt c = s.scopeAt c
  entry : ∀ name, name ≠ n → name ≠ structKeyword →
    (s₁.scopeAt 0).get? name = (s.scopeAt 0).get? name

namespace Rebinds

theorem refl (s : State) : Rebinds n s s :=
  ⟨rfl, rfl, rfl, rfl, rfl, rfl, rfl, fun _ _ => rfl, fun _ _ _ => rfl⟩

theorem bind (hroot : s.scope = 0) {name : String} (hname : name = n ∨ name = structKeyword)
    (id : SymbolId) : Rebinds n s (s.bind name id) where
  symbols := rfl
  pending := rfl
  endSymbol? := rfl
  scope := rfl
  outer := rfl
  diagnostics := rfl
  size := Array.size_modify
  scopeAt := fun c hc => by rw [scopeAt_bind, if_neg fun h => hc (h.1.trans hroot)]
  entry := fun other hn hkeyword => by
    rw [scopeAt_bind]
    split
    · rw [Scope.get?, Scope.insert, Dictionary.get?_insert, if_neg, Scope.get?]
      rintro rfl
      exact hname.elim hn hkeyword
    · rfl

theorem symbol (h : Rebinds n s s₁) (id : SymbolId) : s₁.symbol id = s.symbol id := by
  rw [State.symbol, h.symbols, State.symbol]

theorem spelled (h : Rebinds n s s₁) (i : SymbolId) (hi : s.isStructKeyword i = true) :
    s₁.isStructKeyword i = true := by
  rw [isStructKeyword, h.symbol]
  exact hi

end Rebinds

namespace Tracks

variable (h : Tracks k n s s')
include h

/-- What `n` and `struct` stand for may change in each reading by itself. -/
theorem rebinds (hs : Rebinds n s s₁) (hs' : Rebinds n s' s₁') (hsensible : s₁.Sensible)
    (hkeywords : Keywords s₁ s₁') (hown : Own k n s₁ s₁') : Tracks k n s₁ s₁' where
  phase := h.phase.of_eq (by rw [hs.symbols]) (by rw [hs'.symbols]) hs.pending hs'.pending
    hs.endSymbol? hs'.endSymbol?
  clean := by
    rw [Clean, hs'.diagnostics]
    exact h.clean
  scope := by rw [hs.scope, hs'.scope, h.scope]
  outer := by rw [hs.outer, hs'.outer, h.outer]
  scopes := by rw [hs.size, hs'.size, h.scopes]
  scope_lt := by rw [hs.scope, hs.size]; exact h.scope_lt
  chain := by rw [hs.scope, hs.outer]; exact h.chain
  sensible := hsensible
  similar := fun id hid => by
    rw [hs.symbol, hs'.symbol]
    rw [hs.symbols] at hid
    exact h.similar id hid
  order := fun c hc => by rw [hs.scopeAt c hc, hs'.scopeAt c hc]; exact h.order c hc
  same := fun c name hname => by
    have hsame := h.same c name hname
    have hget : (s₁.scopeAt c).get? name = (s.scopeAt c).get? name ∧
        (s₁'.scopeAt c).get? name = (s'.scopeAt c).get? name := by
      by_cases hc : c = 0
      · obtain ⟨hn, hkeyword⟩ := hname hc
        subst hc
        exact ⟨hs.entry name hn hkeyword, hs'.entry name hn hkeyword⟩
      · rw [hs.scopeAt c hc, hs'.scopeAt c hc]
        exact ⟨rfl, rfl⟩
    refine ⟨by rw [hget.1, hget.2, hsame.entry], fun id hid => ?_⟩
    rw [hs.symbol, hs'.symbol]
    rw [hget.1] at hid
    exact hsame.matching id hid
  keywords := hkeywords
  own := hown

/-- What `n` stands for stays as it is when only `struct` is bound. -/
theorem own_of_entry (hs : Rebinds n s s₁) (hs' : Rebinds n s' s₁')
    (hentry : (s₁.scopeAt 0).get? n = (s.scopeAt 0).get? n)
    (hentry' : (s₁'.scopeAt 0).get? n = (s'.scopeAt 0).get? n) : Own k n s₁ s₁' := by
  rcases h.own with ⟨hsame, hstruct⟩ | ⟨hput, hahead', hahead⟩
  · refine .inl ⟨⟨by rw [hentry, hentry', hsame.entry], fun id hid => ?_⟩, fun id hid => ?_⟩
    · rw [hs.symbol, hs'.symbol]
      rw [hentry] at hid
      exact hsame.matching id hid
    · rw [hentry] at hid
      exact isStruct_of_symbol_eq (hstruct id hid) (hs.symbol id) hs.spelled
  · refine .inr ⟨hentry'.trans hput, ?_, fun id hid => ?_⟩
    · exact hahead'.of_eq (by rw [hs'.symbols]) (hs'.symbol _) hs'.spelled
    · rw [hentry] at hid
      exact (hahead id hid).of_eq (by rw [hs.symbols]) (hs.symbol id) hs.spelled

end Tracks

/-! ## Reserving -/

theorem reserve_eq_self {existing : SymbolId}
    (hlocal : s.local? (s.symbol keyword).value = some existing)
    (hreserved : (s.symbol existing).reserved = true) : s.reserve keyword = s := by
  unfold reserve
  dsimp only
  rw [hlocal]
  exact if_pos hreserved

/-- The keyword is marked and bound. -/
theorem reserve_eq_bind (hlocal : ∀ existing, s.local? (s.symbol keyword).value = some existing →
      (s.symbol existing).reserved = false ∧ (s.symbol existing).kind ≠ .name) :
    s.reserve keyword = (s.modifySymbol keyword ({ · with reserved := true })).bind
      (s.symbol keyword).value keyword := by
  unfold reserve
  dsimp only
  cases hfound : s.local? (s.symbol keyword).value with
  | none => rfl
  | some existing =>
    obtain ⟨hreserved, hkind⟩ := hlocal existing hfound
    dsimp only
    rw [hreserved, if_neg Bool.false_ne_true, if_neg hkind]

/-- Whatever stood in its place, the spelling of a keyword is bound once it has been reserved. -/
theorem isSome_reserve (hlt : s.scope < s.scopes.size) (keyword : SymbolId) :
    ((s.reserve keyword).local? (s.symbol keyword).value).isSome = true := by
  have hbound {s₁ : State} (hscope : s₁.scope = s.scope) (hscopes : s₁.scopes = s.scopes) :
      ((s₁.bind (s.symbol keyword).value keyword).local? (s.symbol keyword).value).isSome =
        true := by
    show (((s₁.bind _ keyword).scopeAt s₁.scope).get? _).isSome = true
    rw [get?_bind (by rw [hscope, hscopes]; exact hlt), if_pos ⟨rfl, rfl⟩]
    rfl
  unfold reserve
  dsimp only
  cases hfound : s.local? (s.symbol keyword).value with
  | none => exact hbound rfl rfl
  | some existing =>
    dsimp only
    split
    · rw [hfound]
      rfl
    · split
      · exact hbound rfl rfl
      · exact hbound rfl rfl

/-- A symbol that is marked as a keyword. -/
theorem sensible_mark (h : s.Sensible) (keyword : SymbolId) :
    (s.modifySymbol keyword ({ · with reserved := true })).Sensible :=
  h.modifySymbol keyword rfl id fun htypical => ⟨htypical.role, htypical.id⟩

/-- The keyword `struct`, once it has been marked. -/
theorem keywordAt_mark (hlt : keyword < s.symbols.size) (hundeclared : s.Undeclared keyword)
    (hid : (s.symbol keyword).id = structKeyword)
    (hrole : (s.symbol keyword).role = { std := some .struct }) :
    (s.modifySymbol keyword ({ · with reserved := true })).KeywordAt keyword := by
  refine ⟨by rw [State.modifySymbol, Array.size_modify]; exact hlt, ?_, ?_⟩
  · rw [symbol_modifySymbol_self hlt]
    show Prototype.mk _ _ _ = _
    rw [hid, hrole]
  · rw [Undeclared, symbol_modifySymbol_self hlt]
    exact hundeclared

namespace Tracks

/-- Both readings mark the keyword and bind it. -/
theorem bind_keyword (h : Tracks k n s s') (hkeyword : Spare k s s' keyword)
    (hkind : (s.symbol keyword).kind ≠ .literal) (hn : (s.symbol keyword).value ≠ n)
    (hstruct : (s.symbol keyword).value = structKeyword → (s.symbol keyword).id = structKeyword ∧
      (s.symbol keyword).role = { std := some .struct }) :
    Tracks k n
      ((s.modifySymbol keyword ({ · with reserved := true })).bind (s.symbol keyword).value keyword)
      ((s'.modifySymbol (moved k keyword) ({ · with reserved := true })).bind
        (s.symbol keyword).value (moved k keyword)) := by
  have hsimilar := h.similar keyword hkeyword.lt
  have hmark : Tracks k n (s.modifySymbol keyword ({ · with reserved := true }))
      (s'.modifySymbol (moved k keyword) ({ · with reserved := true })) :=
    h.modify_unbound hkeyword.left.unbound hkeyword.right.unbound (fun _ => rfl) (fun _ => rfl)
      (sensible_mark h.sensible keyword) fun hsimilar =>
        ⟨hsimilar.id, hsimilar.role, hsimilar.value, hsimilar.kind⟩
  have hself : (s.modifySymbol keyword ({ · with reserved := true })).symbol keyword =
      { s.symbol keyword with reserved := true } := symbol_modifySymbol_self hkeyword.lt _
  have hself' : (s'.modifySymbol (moved k keyword) ({ · with reserved := true })).symbol
      (moved k keyword) = { s'.symbol (moved k keyword) with reserved := true } :=
    symbol_modifySymbol_self (h.phase.moved_lt hkeyword.lt) _
  have hlt : keyword < (s.modifySymbol keyword ({ · with reserved := true })).symbols.size := by
    rw [State.modifySymbol, Array.size_modify]
    exact hkeyword.lt
  have hbind := hmark.bind hlt (by rw [hself]; exact hkind) ?_ ?_ ?_
  · rw [hself] at hbind
    exact hbind
  · -- neither has been declared
    rw [hself, hself']
    refine ⟨⟨hsimilar.id, hsimilar.role, hsimilar.value, hsimilar.kind⟩, rfl, ?_⟩
    show (s'.symbol (moved k keyword)).declaration? = (s.symbol keyword).declaration?.map _
    rw [show (s.symbol keyword).declaration? = none from hkeyword.left.undeclared]
    exact hkeyword.right.undeclared
  · intro _ hvalue
    rw [hself] at hvalue
    obtain ⟨hid, hrole⟩ := hstruct hvalue
    exact ⟨keywordAt_mark hkeyword.lt hkeyword.left.undeclared hid hrole,
      keywordAt_mark (h.phase.moved_lt hkeyword.lt) hkeyword.right.undeclared
        (hsimilar.id.trans hid) (hsimilar.role.trans hrole)⟩
  · intro _ hvalue
    rw [hself] at hvalue
    exact absurd hvalue hn

/-- Only the first reading marks the keyword `struct` and binds it. -/
theorem bind_keyword_left (h : Tracks k n s s') (hroot : s.scope = 0)
    (hkeyword : Spare k s s' keyword) (hkind : (s.symbol keyword).kind ≠ .literal)
    (hvalue : (s.symbol keyword).value = structKeyword) (hn : n ≠ structKeyword)
    (hid : (s.symbol keyword).id = structKeyword)
    (hrole : (s.symbol keyword).role = { std := some .struct })
    (hright : ((s'.scopeAt 0).get? structKeyword).isSome = true) :
    Tracks k n ((s.modifySymbol keyword ({ · with reserved := true })).bind structKeyword keyword)
      s' := by
  -- no name stands for the keyword yet, so marking it is seen by no entry
  have hmark : Tracks k n (s.modifySymbol keyword ({ · with reserved := true })) s' := by
    refine h.unnamed (.modifySymbol hkeyword.left.unbound fun _ => rfl) (.refl s')
      (h.phase.of_eq Array.size_modify rfl rfl rfl rfl rfl) h.clean
      (sensible_mark h.sensible keyword) fun i hi => ?_
    rw [State.modifySymbol, Array.size_modify] at hi
    rw [Parse.symbol_modifySymbol]
    have hsimilar := h.similar i hi
    split
    · exact ⟨hsimilar.id, hsimilar.role, hsimilar.value, hsimilar.kind⟩
    · exact hsimilar
  have hat := keywordAt_mark hkeyword.lt hkeyword.left.undeclared hid hrole
  have hself : (s.modifySymbol keyword ({ · with reserved := true })).symbol keyword =
      { s.symbol keyword with reserved := true } := symbol_modifySymbol_self hkeyword.lt _
  have hget := get?_bind (s := s.modifySymbol keyword ({ · with reserved := true })) h.scope_lt
    structKeyword
  have hrebinds := Rebinds.bind (n := n)
    (s := s.modifySymbol keyword ({ · with reserved := true })) hroot (.inr rfl) keyword
  refine hmark.rebinds hrebinds (.refl s') ?_ ⟨fun i hi => ?_, h.keywords.right, fun _ => hright⟩
    (hmark.own_of_entry hrebinds (.refl s') ?_ rfl)
  · have hsensible := hmark.sensible.bind hat.lt (by rw [hself]; exact hkind)
    rw [hself] at hsensible
    show (State.bind _ structKeyword keyword).Sensible
    rw [← hvalue]
    exact hsensible
  · rw [hget, if_pos ⟨hroot.symm, rfl⟩] at hi
    cases hi
    exact hat.of_eq (Nat.le_refl _) rfl
  · rw [hget, if_neg fun heq => hn heq.2]

/-- The keyword `struct` is reserved in the outermost scope, where it may have been reserved in the
second reading already. -/
theorem reserve_struct (h : Tracks k n s s') (hroot : s.scope = 0)
    (hkeyword : Spare k s s' keyword) (hkind : (s.symbol keyword).kind ≠ .literal)
    (hvalue : (s.symbol keyword).value = structKeyword) (hn : n ≠ structKeyword)
    (hid : (s.symbol keyword).id = structKeyword)
    (hrole : (s.symbol keyword).role = { std := some .struct }) :
    Tracks k n (s.reserve keyword) (s'.reserve (moved k keyword)) := by
  have hlocal : s.local? (s.symbol keyword).value = (s.scopeAt 0).get? structKeyword := by
    rw [local?, hroot, hvalue]
  have hlocal' : s'.local? (s'.symbol (moved k keyword)).value =
      (s'.scopeAt 0).get? structKeyword := by
    rw [local?, h.scope, hroot, h.value, hvalue]
  have hreserved {s : State} {id : SymbolId} (hat : s.KeywordAt id) :
      (s.symbol id).reserved = true :=
    congrArg Prototype.reserved hat.prototype
  cases hleft : (s.scopeAt 0).get? structKeyword with
  | some id =>
    obtain ⟨id', hright⟩ := Option.isSome_iff_exists.1 (h.keywords.isSome (by rw [hleft]; rfl))
    rw [reserve_eq_self (hlocal.trans hleft) (hreserved (h.keywords.left id hleft)),
      reserve_eq_self (hlocal'.trans hright) (hreserved (h.keywords.right id' hright))]
    exact h
  | none =>
    have hbind : s.reserve keyword = (s.modifySymbol keyword ({ · with reserved := true })).bind
        (s.symbol keyword).value keyword :=
      reserve_eq_bind fun existing hfound => by rw [hlocal, hleft] at hfound; cases hfound
    cases hright : (s'.scopeAt 0).get? structKeyword with
    | none =>
      have hbind' : s'.reserve (moved k keyword) =
          (s'.modifySymbol (moved k keyword) ({ · with reserved := true })).bind
            (s'.symbol (moved k keyword)).value (moved k keyword) :=
        reserve_eq_bind fun existing hfound => by rw [hlocal', hright] at hfound; cases hfound
      rw [hbind, hbind', h.value]
      exact h.bind_keyword hkeyword hkind (by rw [hvalue]; exact Ne.symm hn) fun _ => ⟨hid, hrole⟩
    | some id' =>
      -- only the first reading reserves it now
      rw [hbind, reserve_eq_self (hlocal'.trans hright) (hreserved (h.keywords.right id' hright)),
        hvalue]
      exact h.bind_keyword_left hroot hkeyword hkind hvalue hn hid hrole (by rw [hright]; rfl)

/-- A keyword is bound in both readings, if nothing of its spelling keeps it from being reserved. -/
theorem reserve_of_free (h : Tracks k n s s') (hkeyword : Spare k s s' keyword)
    (hkind : (s.symbol keyword).kind ≠ .literal) (hvalue : (s.symbol keyword).value ≠ n)
    (hstruct : (s.symbol keyword).value = structKeyword →
      (s.symbol keyword).id = structKeyword ∧
        (s.symbol keyword).role = { std := some .struct })
    (hsame : SameEntry k s s' s.scope (s.symbol keyword).value)
    (hfree : ∀ existing, s.local? (s.symbol keyword).value = some existing →
      (s.symbol existing).reserved = false ∧ (s.symbol existing).kind ≠ .name) :
    Tracks k n (s.reserve keyword) (s'.reserve (moved k keyword)) := by
  rw [reserve_eq_bind hfree, reserve_eq_bind (s := s'), h.value]
  · exact h.bind_keyword hkeyword hkind hvalue hstruct
  · intro existing' hfound
    rw [local?, h.scope, h.value, hsame.entry, Option.map_eq_some_iff] at hfound
    obtain ⟨existing, hfound, rfl⟩ := hfound
    have hmatches := hsame.matching existing hfound
    rw [hmatches.reserved, hmatches.kind]
    exact hfree existing hfound

end Tracks

/-- A name in the place of a keyword is remarked. -/
theorem kind_ne_name_of_reserve {existing : SymbolId} (hclean : (s.reserve keyword).Clean)
    (hlocal : s.local? (s.symbol keyword).value = some existing)
    (hreserved : (s.symbol existing).reserved = false) : (s.symbol existing).kind ≠ .name := by
  intro hname
  unfold State.reserve at hclean
  dsimp only at hclean
  rw [hlocal] at hclean
  dsimp only at hclean
  rw [hreserved, if_neg Bool.false_ne_true, if_pos hname] at hclean
  exact not_clean_report s keyword _ hclean

namespace Tracks

/-- A keyword is reserved in both readings. -/
theorem reserve (hget : cStructs.get? n = none) (hn : n ≠ structKeyword) (h : Tracks k n s s')
    (hkeyword : Spare k s s' keyword) (hstd : (s.symbol keyword).role.std = some std)
    (hclean : (s.reserve keyword).Clean) :
    Tracks k n (s.reserve keyword) (s'.reserve (moved k keyword)) := by
  obtain ⟨p, hp, hid, hrole, hkind⟩ :=
    (h.sensible.typical keyword hkeyword.lt).table_of_std hstd
  have hvalue : (s.symbol keyword).value ≠ n := by
    intro hvalue
    rw [hvalue, hget] at hp
    cases hp
  have hstruct (hvalue : (s.symbol keyword).value = structKeyword) :
      (s.symbol keyword).id = structKeyword ∧
        (s.symbol keyword).role = { std := some .struct } := by
    have hentry : cStructs.get? structKeyword =
        some { id := structKeyword, role := { std := some .struct } } := by decide
    rw [hvalue, hentry] at hp
    cases hp
    exact ⟨hid, hrole⟩
  -- only `struct` in the outermost scope may stand for unlike symbols
  by_cases hroot : s.scope = 0 ∧ (s.symbol keyword).value = structKeyword
  · obtain ⟨hid, hrole⟩ := hstruct hroot.2
    exact h.reserve_struct hroot.1 hkeyword hkind hroot.2 hn hid hrole
  have hsame : SameEntry k s s' s.scope (s.symbol keyword).value :=
    h.same s.scope _ fun hzero => ⟨hvalue, fun heq => hroot ⟨hzero, heq⟩⟩
  have hbind := h.reserve_of_free hkeyword hkind hvalue hstruct hsame
  cases hlocal : s.local? (s.symbol keyword).value with
  | none => exact hbind fun existing hfound => by rw [hlocal] at hfound; cases hfound
  | some existing =>
    -- a keyword that is reserved already is left alone, on both sides
    cases hreserved : (s.symbol existing).reserved with
    | true =>
      have hmatches := hsame.matching existing hlocal
      have hfound : s'.local? (s'.symbol (moved k keyword)).value = some (moved k existing) := by
        rw [local?, h.scope, h.value]
        exact hsame.get?_moved hlocal
      rw [reserve_eq_self hlocal hreserved,
        reserve_eq_self hfound (hmatches.reserved.trans hreserved)]
      exact h
    | false =>
      refine hbind ?_
      rintro _ hfound
      cases hlocal.symm.trans hfound
      exact ⟨hreserved, kind_ne_name_of_reserve hclean hlocal hreserved⟩

end Tracks

/-! ## Entering a statement -/

theorem declaration?_reserve (s : State) (keyword id : SymbolId) :
    ((s.reserve keyword).symbol id).declaration? = (s.symbol id).declaration? := by
  rcases reserve_cases s keyword with heq | ⟨ds, -, heq⟩
  · rw [heq]
  · rw [heq]
    show ((State.modifySymbol _ keyword _).symbol id).declaration? = _
    rw [Parse.symbol_modifySymbol]
    split <;> rfl

theorem not_isStruct_of_undeclared {id : SymbolId} (h : s.Undeclared id) :
    ¬s.isStruct id = true :=
  fun hstruct => not_isDeclaration h (isDeclaration_of_isStruct hstruct)

theorem gentle_statement : Gentle ({ · with kind := .statement }) :=
  ⟨fun _ => rfl, fun _ => rfl, fun _ h => h⟩

/-- The keyword of a statement makes the symbol of a statement. -/
theorem sensible_statement (h : s.Sensible) (hkind : (s.symbol keyword).kind ≠ .literal) :
    (s.modifySymbol keyword ({ · with kind := .statement })).Sensible := by
  refine h.modifySymbol keyword rfl (fun _ => SymbolKind.noConfusion) fun htypical => ⟨?_, ?_⟩
  · exact htypical.role.imp_right fun hrole => ⟨SymbolKind.noConfusion, hrole.2⟩
  · exact fun _ => htypical.id hkind

namespace Abreast

/-- Where reading goes on, the end has not been reached. -/
theorem endSymbol?_eq_none (h : Abreast k n s s') (hid : s.check endId = false) :
    s.endSymbol? = none := by
  by_contra hend
  have hcurrent : s.current.id = endId := by
    rw [(h.ended hend).1]
    exact IsRegular.cStructs.id endId
  rw [check, hcurrent, beq_self_eq_true] at hid
  cases hid

/-- A keyword is passed and reserved in both readings. -/
theorem enterStatement (hget : cStructs.get? n = none) (hn : n ≠ structKeyword)
    (h : Abreast k n s s') (hstd : s.current.role.std = some std) (hid : s.check endId = false)
    (hstay : s.symbols.size < k ∨ s'.symbols.size = s.symbols.size + 3)
    (hclean : (s.enterStatement cStructs).Clean) :
    Abreast k n (s.enterStatement cStructs) (s'.enterStatement cStructs) := by
  have hend := h.endSymbol?_eq_none hid
  have hclean₂ : ((s.advance cStructs).reserve s.token).Clean :=
    (grows_modifySymbol _ _ _).clean hclean
  have hnext := h.toTracks.advance hget hend hstay ((grows_reserve _ _).clean hclean₂)
  have hkeyword := h.spare.advance h.phase
  have hne : (s.advance cStructs).token ≠ s.token := by
    rw [token_advance hend]
    exact Nat.ne_of_gt h.spare.lt
  have hstd₁ : ((s.advance cStructs).symbol s.token).role.std = some std := by
    rw [symbol_advance h.spare.lt]
    exact hstd
  have hreserve := hnext.toTracks.reserve hget hn hkeyword hstd₁ hclean₂
  have hundeclared : ((s.advance cStructs).reserve s.token).Undeclared s.token :=
    (declaration?_reserve _ _ _).trans hkeyword.left.undeclared
  have hkind : (((s.advance cStructs).reserve s.token).symbol s.token).kind ≠ .literal := by
    rcases reserve_of_clean hclean₂ with heq | ⟨-, heq⟩
    · rw [heq]
      exact ((hnext.sensible.typical _ hkeyword.lt).of_std hstd₁).1
    · rw [heq]
      show ((State.modifySymbol _ s.token _).symbol s.token).kind ≠ .literal
      rw [symbol_modifySymbol_self hkeyword.lt]
      exact ((hnext.sensible.typical _ hkeyword.lt).of_std hstd₁).1
  -- the keyword is no struct, so marking it spoils no struct that is declared ahead
  have hmark := hreserve.modify s.token gentle_statement gentle_statement
    (sensible_statement hreserve.sensible hkind)
    (fun _ _ hsimilar => ⟨hsimilar.id, hsimilar.role, hsimilar.value, rfl⟩)
    (fun _ _ hmatches => ⟨⟨hmatches.id, hmatches.role, hmatches.value, rfl⟩, hmatches.reserved,
      hmatches.declaration?⟩)
    (fun hstruct => absurd hstruct (not_isStruct_of_undeclared hundeclared))
    (fun _ _ hahead => absurd hahead.forward.struct (not_isStruct_of_undeclared hundeclared))
  have haside := (Aside.reserve (s.advance cStructs) s.token).trans
    (.modifySymbol (P := (· = s.token)) rfl ({ · with kind := .statement }))
  have haside' := (Aside.reserve (s'.advance cStructs) (moved k s.token)).trans
    (.modifySymbol (P := (· = moved k s.token)) rfl ({ · with kind := .statement }))
  unfold State.enterStatement
  rw [h.token]
  exact hnext.aside hmark haside haside' hne (moved_ne hne)

end Abreast

end State

end CStruct.Parse
