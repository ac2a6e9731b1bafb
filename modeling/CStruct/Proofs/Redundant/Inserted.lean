import CStruct.Proofs.Redundant.Crossing

/-!
# What was put in

Where the second reading comes to the forward declaration that was put in, it passes it without a
remark. Then the symbol that the first reading has taken already is next, and both are abreast.
-/

namespace CStruct.Parse.State

open SymbolTable

variable {k : Nat} {n : String} {s s' s₁ s₁' y y' z : State} {x x' : Symbol} {keyword : SymbolId}

/-- The keyword of a struct outside all others has been reserved before, or it is now. -/
theorem reserve_struct_cases (hscope : s.scope = 0)
    (hvalue : (s.symbol keyword).value = structKeyword)
    (hroot : ∀ id, (s.scopeAt 0).get? structKeyword = some id → s.KeywordAt id) :
    s.reserve keyword = s ∨
      s.reserve keyword = (s.modifySymbol keyword ({ · with reserved := true })).bind
        structKeyword keyword := by
  have hlocal : s.local? (s.symbol keyword).value = (s.scopeAt 0).get? structKeyword := by
    rw [local?, hscope, hvalue]
  cases hfound : (s.scopeAt 0).get? structKeyword with
  | some id =>
    exact .inl (reserve_eq_self (hlocal.trans hfound)
      (congrArg Prototype.reserved (hroot id hfound).prototype))
  | none =>
    refine .inr ?_
    rw [reserve_eq_bind, hvalue]
    intro existing hexisting
    rw [hlocal, hfound] at hexisting
    cases hexisting

/-- From the state `y'` on, the keyword of the forward declaration of `n` has been read and its name.
Since then, `m` symbols have been read in all, and nothing has changed but that the keyword may have
been reserved. -/
structure PassesName (m k : Nat) (n : String) (y' z : State) : Prop where
  size : z.symbols.size = m
  lt : k + 1 < m
  symbol : ∀ id < k, z.symbol id = y'.symbol id
  scope : z.scope = y'.scope
  outer : z.outer = y'.outer
  diagnostics : z.diagnostics = y'.diagnostics
  scopes : z.scopes = y'.scopes ∨
    z.scopes = (y'.bind structKeyword k).scopes ∧ z.KeywordAt k
  keyword : z.isStructKeyword k = true
  value : (z.symbol (k + 1)).value = n
  id : (z.symbol (k + 1)).id = nameId
  undeclared : z.Undeclared (k + 1)

namespace PassesName

variable {m : Nat} (h : PassesName m k n y' z)
include h

/-- Another symbol is taken. -/
theorem takes (htakes : z.Takes z' x) : PassesName (m + 1) k n y' z' := by
  have hsymbol {id : SymbolId} (hid : id < m) : z'.symbol id = z.symbol id :=
    htakes.symbol_of_lt (h.size ▸ hid)
  have hlt := h.lt
  exact
    { size := by rw [htakes.size, h.size]
      lt := Nat.lt_succ_of_lt hlt
      symbol := fun id hid => by
        rw [hsymbol (Nat.lt_trans hid (Nat.lt_of_succ_lt hlt)), h.symbol id hid]
      scope := htakes.scope.trans h.scope
      outer := htakes.outer.trans h.outer
      diagnostics := htakes.diagnostics.trans h.diagnostics
      scopes := by
        rcases h.scopes with heq | ⟨heq, hat⟩
        · exact .inl (htakes.scopes.trans heq)
        · refine .inr ⟨htakes.scopes.trans heq, hat.of_eq ?_ (htakes.symbol_of_lt hat.lt)⟩
          rw [htakes.size]
          exact Nat.le_succ _
      keyword := by
        rw [htakes.isStructKeyword (h.size ▸ Nat.lt_of_succ_lt hlt)]
        exact h.keyword
      value := by rw [hsymbol hlt]; exact h.value
      id := by rw [hsymbol hlt]; exact h.id
      undeclared := by rw [Undeclared, hsymbol hlt]; exact h.undeclared }

/-- A change to the keyword that leaves its spelling alone. -/
theorem modifySymbol {f : Symbol → Symbol} (hvalue : ∀ x, (f x).value = x.value)
    (hscopes : z.scopes = y'.scopes ∨
      z.scopes = (y'.bind structKeyword k).scopes ∧ (z.modifySymbol k f).KeywordAt k) :
    PassesName m k n y' (z.modifySymbol k f) := by
  have hsymbol {id : SymbolId} (hid : id ≠ k) : (z.modifySymbol k f).symbol id = z.symbol id :=
    symbol_modifySymbol_of_ne hid
  exact
    { size := Array.size_modify.trans h.size
      lt := h.lt
      symbol := fun id hid => by rw [hsymbol (Nat.ne_of_lt hid), h.symbol id hid]
      scope := h.scope
      outer := h.outer
      diagnostics := h.diagnostics
      scopes := hscopes
      keyword := isStructKeyword_modifySymbol hvalue h.keyword
      value := by rw [hsymbol (Nat.succ_ne_self k)]; exact h.value
      id := by rw [hsymbol (Nat.succ_ne_self k)]; exact h.id
      undeclared := by rw [Undeclared, hsymbol (Nat.succ_ne_self k)]; exact h.undeclared }

/-- The keyword is reserved. -/
theorem reserve (hscope : y'.scope = 0) (hscopes : z.scopes = y'.scopes)
    (hid : (z.symbol k).id = structKeyword)
    (hrole : (z.symbol k).role = { std := some .struct }) (hundeclared : z.Undeclared k)
    (hroot : ∀ id, (z.scopeAt 0).get? structKeyword = some id → z.KeywordAt id) :
    PassesName m k n y' (z.reserve k) := by
  rcases reserve_struct_cases (h.scope.trans hscope) (beq_iff_eq.1 h.keyword) hroot with heq | heq
  · rw [heq]
    exact h
  · have hlt : k < z.symbols.size := h.size ▸ Nat.lt_of_succ_lt h.lt
    have hmark := keywordAt_mark hlt hundeclared hid hrole
    have hbare : PassesName m k n y' (z.modifySymbol k ({ · with reserved := true })) :=
      h.modifySymbol (fun _ => rfl) (.inl hscopes)
    rw [heq]
    refine { hbare with
      scopes := .inr ⟨?_, hmark.of_eq (Nat.le_refl _) rfl⟩ }
    rw [State.bind, State.bind, h.scope.symm, ← hscopes]
    rfl

end PassesName

theorem Takes.meaning (h : s.Takes s₁ x) (hbounded : s.Bounded) (scopes : List ScopeId)
    (text : String) : s₁.meaning scopes text = s.meaning scopes text := by
  induction scopes with
  | nil => rfl
  | cons c cs ih =>
    cases hfound : (s.scopeAt c).get? text with
    | none =>
      rw [meaning_cons_of_none hfound, meaning_cons_of_none (by rw [h.scopeAt, hfound]), ih]
    | some id =>
      rw [meaning_cons_of_some hfound,
        meaning_cons_of_some (show (s₁.scopeAt c).get? text = some id by rw [h.scopeAt, hfound]),
        h.symbol_of_lt (hbounded c text id hfound)]

theorem ahead_reserve (s : State) (keyword : SymbolId) : (s.reserve keyword).ahead = s.ahead := by
  rcases reserve_cases s keyword with heq | ⟨ds, -, heq⟩
  · rw [heq]
  · rw [heq]
    rfl

/-- What stands for `n` in the outermost scope is a struct, or nothing does. -/
theorem Tracks.free_of_not_struct (h : Tracks k n s s')
    (hnew : ¬((s'.scopeAt 0).get? n).any s'.isStruct = true) :
    (s.scopeAt 0).get? n = none ∧ (s'.scopeAt 0).get? n = none := by
  rcases h.own with ⟨hsame, hstructs⟩ | ⟨hput, hahead, -⟩
  · cases hfound : (s.scopeAt 0).get? n with
    | none => exact ⟨rfl, by rw [hsame.entry, hfound]; rfl⟩
    | some id =>
      refine absurd ?_ hnew
      rw [hsame.get?_moved hfound, Option.any_some, h.isStruct (hsame.matching id hfound)]
      exact hstructs id hfound
  · refine absurd ?_ hnew
    rw [hput, Option.any_some]
    exact hahead.forward.struct

namespace Crosses

variable (hget : cStructs.get? n = none) (h : Crosses k n y y' x x' s s')
include h

theorem current : s'.current = x' := h.takes'.current

theorem size_right : s'.symbols.size = k + 1 := by
  rw [h.takes'.size, h.size']

theorem token_right : s'.token = k := by
  rw [h.takes'.token, h.size']

theorem std : s'.current.role.std = some .struct := by
  rw [h.current, h.similar.role]
  rfl

theorem atClose : s'.atClose = false := by
  rw [State.atClose, State.check, State.check, h.current, h.similar.id]
  decide

theorem scope_right : y'.scope = 0 := h.tracks.scope.trans h.scope

theorem bounded : y'.Bounded := fun _ _ _ => h.tracks.entry_lt'

/-- Names stand for what they stood for, or for the keyword that was put in. -/
theorem entry_le {m : Nat} (hpass : PassesName m k n y' z) {c : ScopeId} {name : String} {id : SymbolId}
    (hid : (z.scopeAt c).get? name = some id) : id ≤ k := by
  rw [State.scopeAt] at hid
  rcases hpass.scopes with heq | ⟨heq, -⟩
  · rw [heq] at hid
    exact Nat.le_of_lt (h.size' ▸ h.bounded c name id hid)
  · rw [heq] at hid
    rcases entry_bind hid with ⟨rfl, -⟩ | hold
    · exact Nat.le_refl _
    · exact Nat.le_of_lt (h.size' ▸ h.bounded c name id hold)

/-- But for what the name `struct` stands for, nothing changes about the scopes. -/
theorem tracks_bare (hpass : PassesName (k + 3) k n y' z) (hahead : z.ahead = y.ahead)
    (hend : z.endSymbol? = none) : Tracks k n y { z with scopes := y'.scopes } := by
  have hsymbol {id : SymbolId} (hid : id < y'.symbols.size) : z.symbol id = y'.symbol id :=
    hpass.symbol id (h.size' ▸ hid)
  have hle : y'.symbols.size ≤ z.symbols.size := by
    rw [hpass.size, h.size']
    exact Nat.le_add_right k 3
  have hunnamed : y'.Unnamed { z with scopes := y'.scopes } := by
    refine ⟨rfl, hpass.scope, hpass.outer, hle, ?_, fun i hi => ?_⟩
    · exact fun c name id hid => hsymbol (h.bounded c name id hid)
    · show ((z.symbol i).value == structKeyword) = true
      rw [hsymbol (isStructKeyword_lt hi)]
      exact hi
  have hphase : Phase k n y { z with scopes := y'.scopes } := by
    refine .after (Nat.le_of_eq h.size.symm) ?_ hahead (hend.trans ?_)
    · rw [hpass.size, h.size]
    · rw [h.ended]
      rfl
  have hclean : State.Clean { z with scopes := y'.scopes } := by
    show z.diagnostics.toList = []
    rw [hpass.diagnostics]
    exact h.tracks.clean
  refine h.tracks.unnamed (.refl y) hunnamed hphase hclean h.tracks.sensible fun id hid => ?_
  have hsimilar := h.tracks.similar id hid
  have hlt := h.tracks.phase.moved_lt hid
  show Similar (y.symbol id) (z.symbol (moved k id))
  rw [hsymbol hlt]
  exact hsimilar

/-- Behind the name that was put in, the second reading still tracks the first. -/
theorem tracks_passesName (hn : n ≠ structKeyword) (hpass : PassesName (k + 3) k n y' z)
    (hahead : z.ahead = y.ahead) (hend : z.endSymbol? = none) : Tracks k n y z := by
  have hbare := h.tracks_bare hpass hahead hend
  rcases hpass.scopes with heq | ⟨heq, hat⟩
  · rw [← heq] at hbare
    exact hbare
  · -- the keyword has been reserved
    have hroot : State.scope { z with scopes := y'.scopes } = 0 := hpass.scope.trans h.scope_right
    have hscopes : y'.scopes.modify z.scope (·.insert structKeyword k) = z.scopes := by
      rw [hpass.scope, heq, State.bind]
    have hz : State.bind { z with scopes := y'.scopes } structKeyword k = z :=
      congrArg (fun scopes => { z with scopes }) hscopes
    have hentry := get?_bind_root (s := { z with scopes := y'.scopes }) hbare.scope_lt' hroot k
      structKeyword
    rw [← hz]
    have hrebinds : Rebinds n { z with scopes := y'.scopes }
        (State.bind { z with scopes := y'.scopes } structKeyword k) := .bind hroot (.inr rfl) k
    refine hbare.rebinds (.refl y) hrebinds h.tracks.sensible ⟨hbare.keywords.left, ?_, ?_⟩
      (hbare.own_of_entry (.refl y) hrebinds rfl ?_)
    · intro id hid
      rw [hentry, if_pos rfl] at hid
      cases hid
      exact hat.of_eq (Nat.le_refl _) rfl
    · intro _
      rw [hentry, if_pos rfl]
      rfl
    · rw [hentry, if_neg hn]

/-- Behind the keyword that was put in, the name is taken. -/
theorem takes_name : ∃ l : Lexeme, l.unplaced = ⟨.name, n, {}⟩ ∧
    s'.Takes (s'.advance cStructs) (s'.madeOf (s'.resolve cStructs n) l) ∧
    (s'.advance cStructs).ahead = ⟨.operator, ";", {}⟩ :: y.ahead ∧
    (s'.advance cStructs).endSymbol? = none := by
  obtain ⟨l, hl, htakes, hahead, hends⟩ := takes_lexeme (t := cStructs)
    (p := s'.resolve cStructs n) h.ahead' rfl
  exact ⟨l, hl, htakes, hahead, hends.trans h.ended'⟩

include hget

/-- Nothing is known of the name but that it is one. -/
theorem resolve_name : (s'.resolve cStructs n).id = nameId := by
  rw [resolve_eq_meaning, h.takes'.scope, h.takes'.outer, h.takes'.meaning h.bounded,
    (h.tracks.meaning hget n).1, (h.tracks.sensible.meaning _ _).1, wordPrototype, hget]
  decide

/-- Where the name has been taken, the keyword has not been reserved yet. -/
theorem passesName_advance {l : Lexeme} (hl : l.unplaced = ⟨.name, n, {}⟩)
    (htakes : s'.Takes (s'.advance cStructs) (s'.madeOf (s'.resolve cStructs n) l)) :
    PassesName (k + 2) k n y' (s'.advance cStructs) ∧ (s'.advance cStructs).symbol k = x' ∧
      (s'.advance cStructs).scopes = y'.scopes := by
  have hscopes := htakes.scopes.trans h.takes'.scopes
  have hnew : (s'.advance cStructs).symbol (k + 1) = s'.madeOf (s'.resolve cStructs n) l := by
    rw [← h.size_right, htakes.symbol_new]
  have hkeyword : (s'.advance cStructs).symbol k = x' := by
    rw [htakes.symbol_of_lt (by rw [h.size_right]; exact Nat.lt_succ_self k), ← h.size',
      h.takes'.symbol_new]
  refine ⟨⟨?_, Nat.lt_succ_self _, fun id hid => ?_, htakes.scope.trans h.takes'.scope,
    htakes.outer.trans h.takes'.outer, htakes.diagnostics.trans h.takes'.diagnostics, .inl hscopes,
    ?_, ?_, ?_, ?_⟩, hkeyword, hscopes⟩
  · rw [htakes.size, h.size_right]
  · rw [htakes.symbol_of_lt (by rw [h.size_right]; exact Nat.lt_succ_of_lt hid),
      h.takes'.symbol_of_lt (by rw [h.size']; exact hid)]
  · rw [isStructKeyword, hkeyword, h.similar.value]
    rfl
  · rw [hnew]
    exact congrArg Lexeme.text hl
  · rw [hnew]
    exact h.resolve_name hget
  · rw [Undeclared, hnew]
    rfl

/-- Then the keyword is reserved, and becomes a statement. -/
theorem passesName_enterStatement {l : Lexeme} (hl : l.unplaced = ⟨.name, n, {}⟩)
    (htakes : s'.Takes (s'.advance cStructs) (s'.madeOf (s'.resolve cStructs n) l)) :
    PassesName (k + 2) k n y' (s'.enterStatement cStructs) := by
  obtain ⟨hpass, hkeyword, hscopes⟩ := h.passesName_advance hget hl htakes
  have hroot : ∀ id, ((s'.advance cStructs).scopeAt 0).get? structKeyword = some id →
      (s'.advance cStructs).KeywordAt id := by
    intro id hid
    rw [State.scopeAt, hscopes] at hid
    have hat := h.tracks.keywords.right id hid
    refine hat.of_eq ?_ (hpass.symbol id (h.size' ▸ hat.lt))
    rw [hpass.size, h.size']
    exact Nat.le_add_right k 2
  have hreserve := hpass.reserve h.scope_right hscopes (by rw [hkeyword, h.similar.id]; rfl)
    (by rw [hkeyword, h.similar.role]; rfl) (by rw [Undeclared, hkeyword]; exact h.undeclared')
    hroot
  rw [State.enterStatement, h.token_right]
  exact hreserve.modifySymbol gentle_statement.value
    (hreserve.scopes.imp_right (And.imp_right fun hat => hat.modify gentle_statement))

/-- The keyword and the name that were put in are passed. -/
theorem passesName : PassesName (k + 3) k n y' (s'.passHead cStructs) ∧
    (s'.passHead cStructs).ahead = y.ahead ∧ (s'.passHead cStructs).endSymbol? = none ∧
    (s'.passHead cStructs).check ";" = true ∧
    (s'.enterStatement cStructs).tag? = some (k + 1) := by
  obtain ⟨l, hl, htakes, hahead, hend⟩ := h.takes_name
  have hpass := h.passesName_enterStatement hget hl htakes
  have haside : Aside (· = k) (s'.advance cStructs) (s'.enterStatement cStructs) := by
    rw [State.enterStatement, h.token_right]
    exact (Aside.reserve _ k).trans (.modifySymbol (P := (· = k)) rfl _)
  have haheadEnter : (s'.enterStatement cStructs).ahead = (s'.advance cStructs).ahead :=
    ahead_reserve (s'.advance cStructs) s'.token
  -- the name is the tag, and the semicolon is next
  have htoken : (s'.enterStatement cStructs).token = k + 1 :=
    haside.token.trans (htakes.token.trans h.size_right)
  have hcurrent : (s'.enterStatement cStructs).current = s'.madeOf (s'.resolve cStructs n) l := by
    rw [State.current, htoken, haside.symbol (k + 1) (Nat.succ_ne_self k), ← h.size_right,
      htakes.symbol_new]
  have hkind : (s'.enterStatement cStructs).current.kind = .name := by
    rw [hcurrent]
    exact congrArg kindOf (congrArg Lexeme.kind hl :)
  have htag : (s'.enterStatement cStructs).tag? = some (k + 1) := by
    rw [State.tag?, if_pos hkind, htoken]
  have hhead : s'.passHead cStructs = (s'.enterStatement cStructs).advance cStructs := by
    rw [State.passHead, State.passTag, htag, Option.isSome_some, if_pos rfl]
  obtain ⟨l', hl', htakesEnd, haheadEnd, hendsEnd⟩ := takes_lexeme (t := cStructs)
    (p := { id := ";" }) (haheadEnter.trans hahead)
    (show cStructs.get? ";" = some { id := ";" } by decide)
  rw [hhead]
  refine ⟨hpass.takes htakesEnd, haheadEnd, hendsEnd.trans (haside.endSymbol?.trans hend), ?_, htag⟩
  rw [State.check, htakesEnd.current]
  exact beq_self_eq_true ";"

/-- Behind the semicolon that was put in, the next symbol of the first reading is taken. -/
theorem abreast_passesName (hpass : PassesName (k + 3) k n y' z) (hz : Tracks k n y z)
    (hahead : z.ahead = y.ahead) (hend : z.endSymbol? = none) :
    Abreast k n s (z.advance cStructs) := by
  have hmoved : moved k y.symbols.size = z.symbols.size := by
    rw [moved_of_le (Nat.le_of_eq h.size.symm), h.size, hpass.size]
  have hphase {s' : State} {x' : Symbol} (htakes : z.Takes s' x') (hrest : s'.ahead = s.ahead)
      (hends : s'.endSymbol? = s.endSymbol?.map (moved k)) : Phase k n s s' := by
    refine .after ?_ ?_ hrest hends
    · rw [h.takes.size, h.size]
      exact Nat.le_succ k
    · rw [htakes.size, h.takes.size, hpass.size, h.size]
  cases h.next with
  | @lexeme l ls hnext hrest hvalue hkind hprototype hends =>
    have hsame := hz.prototype? hget l
    rw [hprototype, Option.map_eq_some_iff] at hsame
    obtain ⟨p, hp, hpx⟩ := hsame
    obtain ⟨hid, hrole⟩ := Prod.ext_iff.1 hpx
    obtain ⟨l', rfl, htakes', hrest', hends'⟩ := takes_lexeme (hahead.trans hnext) hp
    refine hz.takes h.takes htakes' ⟨hid, hrole, hvalue.symm, hkind.symm⟩ h.typical h.undeclared rfl
      hmoved (hphase htakes' (hrest'.trans hrest.symm) ?_) fun hne => absurd hends hne
    rw [hends', hend, hends]
    rfl
  | ended hnext hrest hvalue hkind hprototype hends =>
    obtain ⟨htakes', hrest', hends'⟩ := takes_end (t := cStructs) (hahead.trans hnext) hend
    have hid := congrArg Prototype.id hprototype
    have hrole := congrArg Prototype.role hprototype
    refine hz.takes h.takes htakes' ⟨hid.symm, hrole.symm, hvalue.symm, hkind.symm⟩ h.typical
      h.undeclared rfl hmoved (hphase htakes' (hrest'.trans hrest.symm) ?_)
      fun _ => ⟨hprototype, hkind⟩
    rw [hends', hends, Option.map_some, hmoved]

/-- The forward declaration that was put in is read without a remark. -/
theorem inserted {fuel : Nat} {name? : Option SymbolId}
    (hread : statement cStructs (bodyReader cStructs fuel) s' = some (name?, s₁')) :
    Abreast k n s s₁' := by
  have hn : n ≠ structKeyword := ne_structKeyword hget
  obtain ⟨hpass, hahead, hend, hcheck, htag⟩ := h.passesName hget
  have hz := h.tracks_passesName hn hpass hahead hend
  have hnext := h.abreast_passesName hget hpass hz hahead hend
  have hscope : s.scope = 0 := h.takes.scope.trans h.scope
  rcases struct_cases h.std hread with ⟨-, hs₁'⟩ | ⟨hother, -⟩
  · rw [htag, h.token_right] at hs₁'
    generalize s'.passHead cStructs = z at *
    have hlt : k + 1 < z.symbols.size := by
      rw [hpass.size]
      exact Nat.lt_add_of_pos_right Nat.two_pos
    have hsymbol := symbol_advance (t := cStructs) hlt
    have hlocal : (z.advance cStructs).local? ((z.advance cStructs).symbol (k + 1)).value =
        ((z.advance cStructs).scopeAt 0).get? n := by
      rw [hsymbol, hpass.value, local?, hnext.scope, hscope]
    rw [hs₁', Parse.forwardDeclaration]
    split
    · exact hnext
    -- `n` is declared ahead here, and in the other reading nothing stands for it yet
    · rename_i hnew
      rw [declaresStruct_eq, hlocal] at hnew
      obtain ⟨hfree, hfree'⟩ := hnext.toTracks.free_of_not_struct hnew
      have hloose : (z.advance cStructs).Loose (k + 1) := by
        refine ⟨fun c name hid => ?_, ?_⟩
        · rw [scopeAt, scopes_advance] at hid
          exact Nat.not_lt_of_le (h.entry_le hpass hid) (Nat.lt_succ_self k)
        · rw [Undeclared, hsymbol]
          exact hpass.undeclared
      have htype : (z.advance cStructs).isStructKeyword k = true := by
        rw [isStructKeyword, symbol_advance (isStructKeyword_lt hpass.keyword)]
        exact hpass.keyword
      have hdefine := hnext.toTracks.define_right hn hscope hloose
        (Nat.lt_of_lt_of_le hlt size_le_advance) (by rw [hsymbol, hpass.value])
        (by rw [hsymbol, hpass.id]) htype hfree hfree'
      exact hnext.aside hdefine (.refl (P := fun _ => False) s) (.define _ (k + 1) k) id
        (moved_ne_put k s.token)
  · rw [hcheck] at hother
    cases hother

end Crosses

end CStruct.Parse.State
