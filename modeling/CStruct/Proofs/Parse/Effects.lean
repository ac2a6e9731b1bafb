import CStruct.Proofs.Grammar.Steps

/-!
# What the steps change

Declaring a new name changes its symbol, and it adds an entry to the open scope. All else stays, and
nothing is reported. `Frame` says what stays, `entries` what the open scope holds.
-/

namespace CStruct

theorem insertEntry_of_lookup {α : Type} {name : String} {value : α} {entries : List (String × α)}
    (h : entries.lookup name = none) : insertEntry name value entries = entries ++ [(name, value)] := by
  induction entries with
  | nil => rfl
  | cons entry entries ih =>
    obtain ⟨key, old⟩ := entry
    rw [List.lookup_cons] at h
    by_cases hkey : key = name
    · subst hkey
      rw [beq_self_eq_true] at h
      cases h
    · rw [beq_eq_false_iff_ne.2 (Ne.symm hkey)] at h
      rw [insertEntry, if_neg hkey, ih h]
      rfl

namespace Parse.State

open SymbolTable

/-- Between the two states, only symbols in `T` and the open scope change. -/
structure Frame (T : SymbolId → Prop) (s s' : State) : Prop where
  symbol : ∀ id < s.symbols.size, ¬T id → s'.symbol id = s.symbol id
  symbols_le : s.symbols.size ≤ s'.symbols.size
  token_le : s.token ≤ s'.token
  scope : s'.scope = s.scope
  scopes_le : s.scopes.size ≤ s'.scopes.size
  scopeAt : ∀ k < s.scopes.size, k ≠ s.scope → s'.scopeAt k = s.scopeAt k
  diagnostics : s'.diagnostics = s.diagnostics

/-- What the open scope holds. -/
def entries (s : State) : List (String × SymbolId) := (s.scopeAt s.scope).definitions.entries

theorem local?_eq_lookup (s : State) (name : String) : s.local? name = s.entries.lookup name := rfl

namespace Frame

variable {T T' : SymbolId → Prop} {s s' s'' : State}

theorem refl (s : State) : Frame T s s :=
  ⟨fun _ _ _ => rfl, Nat.le_refl _, Nat.le_refl _, rfl, Nat.le_refl _, fun _ _ _ => rfl, rfl⟩

theorem trans (h : Frame T s s') (h' : Frame T s' s'') : Frame T s s'' where
  symbol := fun id hid ht =>
    (h'.symbol id (Nat.lt_of_lt_of_le hid h.symbols_le) ht).trans (h.symbol id hid ht)
  symbols_le := Nat.le_trans h.symbols_le h'.symbols_le
  token_le := Nat.le_trans h.token_le h'.token_le
  scope := h'.scope.trans h.scope
  scopes_le := Nat.le_trans h.scopes_le h'.scopes_le
  scopeAt := fun k hk hne =>
    (h'.scopeAt k (Nat.lt_of_lt_of_le hk h.scopes_le) (by rw [h.scope]; exact hne)).trans
      (h.scopeAt k hk hne)
  diagnostics := h'.diagnostics.trans h.diagnostics

theorem mono (h : Frame T s s') (hle : ∀ id, T id → T' id) :
    Frame T' s s' :=
  { h with symbol := fun id hid ht => h.symbol id hid fun hid' => ht (hle id hid') }

end Frame

variable {s : State} {T : SymbolId → Prop}

theorem frame_modifySymbol {id : SymbolId} (h : T id) (f : Symbol → Symbol) :
    Frame T s (s.modifySymbol id f) where
  symbol := fun i _ hi => symbol_modifySymbol_of_ne fun heq => hi (heq ▸ h)
  symbols_le := by rw [State.modifySymbol, Array.size_modify]
  token_le := Nat.le_refl _
  scope := rfl
  scopes_le := Nat.le_refl _
  scopeAt := fun _ _ _ => rfl
  diagnostics := rfl

theorem frame_bind (name : String) (id : SymbolId) : Frame T s (s.bind name id) where
  symbol := fun _ _ _ => rfl
  symbols_le := Nat.le_refl _
  token_le := Nat.le_refl _
  scope := rfl
  scopes_le := by rw [State.bind, Array.size_modify]
  scopeAt := fun k _ hne => by rw [scopeAt_bind, if_neg fun h => hne h.1]
  diagnostics := rfl

theorem entries_bind {name : String} (id : SymbolId) (hsize : s.scope < s.scopes.size)
    (h : s.local? name = none) : (s.bind name id).entries = s.entries ++ [(name, id)] := by
  show ((s.bind name id).scopeAt s.scope).definitions.entries = _
  rw [scopeAt_bind, if_pos ⟨rfl, hsize⟩]
  exact insertEntry_of_lookup h

/-! ## Reading -/

/-- Before the end, reading adds a symbol and changes no other, nor a scope. -/
theorem advance_eq_of_none (he : s.endSymbol? = none) (hm : s.Meaningful) {w : List Lexeme}
    (hw : s.pending.filter (fun l => !l.isComment) = w) (ho : Ordinary w) :
    ∃ x ls cs e, s.advance cStructs =
      { s with
        pending := ls, comments := cs, endSymbol? := e
        symbols := s.symbols.push x, token := s.symbols.size } := by
  rw [filter_eq_of_dropWhile] at hw
  cases hnext : s.pending.dropWhile Lexeme.isComment with
  | nil => exact ⟨_, _, _, _, advance_eq_end he hnext⟩
  | cons l ls =>
    rw [hnext] at hw
    subst hw
    obtain ⟨p, hp, -⟩ := prototype?_of_ordinary (s := s) hm (ho.each l List.mem_cons_self)
    exact ⟨_, _, _, _, advance_eq_push hnext hp⟩

theorem Reads.frame_advance {l : Lexeme} {w : List Lexeme} (h : s.Reads (l :: w)) :
    Frame T s (s.advance cStructs) ∧ (s.advance cStructs).entries = s.entries ∧
      s.token < (s.advance cStructs).token := by
  have hlt := h.sound.token_lt
  have hsymbol (id : SymbolId) (hid : id < s.symbols.size) := symbol_advance (t := cStructs) hid
  obtain ⟨x, ls, cs, e, heq⟩ := advance_eq_of_none (h.ended.2 (List.cons_ne_nil l w)) h.meaningful
    h.pending h.ordinary.tail
  rw [heq] at hsymbol ⊢
  refine ⟨⟨fun id hid _ => hsymbol id hid, ?_, Nat.le_of_lt hlt, rfl, Nat.le_refl _,
    fun _ _ _ => rfl, rfl⟩, rfl, hlt⟩
  show s.symbols.size ≤ (s.symbols.push x).size
  rw [Array.size_push]
  exact Nat.le_succ _

theorem Reads.expect_eq {l : Lexeme} {w : List Lexeme} (h : s.Reads (l :: w)) {id : String}
    (hid : id ∈ cOperators) (hl : l.IsOperator id) : s.expect cStructs id = s.advance cStructs := by
  rw [State.expect, if_pos ((h.check_iff hid).2 ⟨l, rfl, hl⟩)]

/-! ## Declaring -/

-- A symbol that has just been declared.
def declaredAs (s : State) (x : Symbol) (d : Declaration) : Symbol :=
  { x with
    kind := .name, role := .ofDeclared, reserved := false, scope? := some s.scope
    declaration? := some d }

section Declaring

variable {name type : SymbolId}

theorem symbol_declare (h : name < s.symbols.size) :
    (s.declare name type).symbol name = s.declaredAs (s.symbol name) { declaredType := type } :=
  symbol_modifySymbol_self h _

theorem frame_define (type : SymbolId) (ht : T name) (h : name < s.symbols.size)
    (hsize : s.scope < s.scopes.size) (hnew : s.local? (s.symbol name).value = none) :
    Frame T s (s.define name type) ∧
      (s.define name type).entries = s.entries ++ [((s.symbol name).value, name)] ∧
      (s.define name type).symbol name =
        s.declaredAs (s.symbol name) { declaredType := type } := by
  have heq : s.define name type = (s.declare name type).bind (s.symbol name).value name := by
    unfold State.define
    dsimp only
    rw [hnew]
    rfl
  rw [heq]
  refine ⟨(frame_modifySymbol ht _).trans (frame_bind _ _), ?_, symbol_declare h⟩
  rw [entries_bind name (s := s.declare name type) hsize hnew]
  rfl

theorem frame_defineAlias (type : SymbolId) {struct : SymbolId} (ht : T name) (ht' : T struct)
    (h : name < s.symbols.size) (hstruct : struct < s.symbols.size) (hne : name ≠ struct)
    (hsize : s.scope < s.scopes.size) (hnew : s.local? (s.symbol name).value = none) :
    Frame T s (s.defineAlias name type struct) ∧
      (s.defineAlias name type struct).entries = s.entries ++ [((s.symbol name).value, name)] ∧
      (s.defineAlias name type struct).symbol name =
        s.declaredAs (s.symbol name) { declaredType := type, isAlias := true } ∧
      (s.defineAlias name type struct).symbol struct =
        { s.symbol struct with
          declaration? := (s.symbol struct).declaration?.map ({ · with alias? := some name }) } := by
  -- as the name is new, nothing is reported and the entry is made
  have heq : s.defineAlias name type struct =
      (((s.declare name type).modifyDeclaration name ({ · with isAlias := true })).modifyDeclaration
        struct ({ · with alias? := some name })).bind (s.symbol name).value name := by
    unfold State.defineAlias
    dsimp only
    rw [hnew]
    rfl
  rw [heq]
  refine ⟨(((frame_modifySymbol ht _).trans (frame_modifySymbol ht _)).trans
    (frame_modifySymbol ht' _)).trans (frame_bind _ _), ?_, ?_, ?_⟩
  · rw [entries_bind name (s := ((s.declare name type).modifyDeclaration name
      ({ · with isAlias := true })).modifyDeclaration struct ({ · with alias? := some name }))
      hsize hnew]
    rfl
  · show (((s.declare name type).modifyDeclaration name _).modifyDeclaration struct _).symbol name = _
    rw [State.modifyDeclaration, symbol_modifySymbol_of_ne hne, State.modifyDeclaration,
      symbol_modifySymbol_self, symbol_declare h]
    · rfl
    · rw [State.declare, State.modifySymbol, Array.size_modify]
      exact h
  · show (((s.declare name type).modifyDeclaration name _).modifyDeclaration struct _).symbol
      struct = _
    rw [State.modifyDeclaration, symbol_modifySymbol_self, State.modifyDeclaration,
      symbol_modifySymbol_of_ne (Ne.symm hne), State.declare, symbol_modifySymbol_of_ne (Ne.symm hne)]
    rw [State.modifyDeclaration, State.declare, State.modifySymbol, State.modifySymbol,
      Array.size_modify, Array.size_modify]
    exact hstruct

/-- A keyword gets an entry in the open scope unless it has one. -/
theorem frame_reserve {keyword : SymbolId} (ht : T keyword) (h : keyword < s.symbols.size)
    (hsize : s.scope < s.scopes.size)
    (hold : ∀ id ∈ s.local? (s.symbol keyword).value, (s.symbol id).reserved = true) :
    Frame T s (s.reserve keyword) ∧
      ((s.reserve keyword).entries = s.entries ∨
        (s.reserve keyword).entries = s.entries ++ [((s.symbol keyword).value, keyword)] ∧
          (s.reserve keyword).symbol keyword = { s.symbol keyword with reserved := true }) := by
  cases hlocal : s.local? (s.symbol keyword).value with
  | none =>
    have heq : s.reserve keyword =
        (s.modifySymbol keyword ({ · with reserved := true })).bind (s.symbol keyword).value
          keyword := by
      unfold State.reserve
      dsimp only
      rw [hlocal]
    rw [heq]
    refine ⟨(frame_modifySymbol ht _).trans (frame_bind _ _), .inr ⟨?_, symbol_modifySymbol_self h _⟩⟩
    rw [entries_bind keyword (s := s.modifySymbol keyword ({ · with reserved := true })) hsize hlocal]
    rfl
  | some existing =>
    have heq : s.reserve keyword = s := by
      unfold State.reserve
      dsimp only
      rw [hlocal]
      dsimp only
      rw [if_pos (hold existing hlocal)]
    rw [heq]
    exact ⟨.refl s, .inl rfl⟩

end Declaring

theorem Reads.frame_enterStatement {l : Lexeme} {w : List Lexeme} (h : s.Reads (l :: w))
    (ht : T s.token) (hsize : s.scope < s.scopes.size)
    (hold : ∀ id ∈ s.local? l.text, id < s.symbols.size ∧ (s.symbol id).reserved = true) :
    Frame T s (s.enterStatement cStructs) ∧ s.token < (s.enterStatement cStructs).token ∧
      ((s.enterStatement cStructs).symbol s.token).kind = .statement ∧
      ((s.enterStatement cStructs).entries = s.entries ∨
        (s.enterStatement cStructs).entries = s.entries ++ [(l.text, s.token)] ∧
          ((s.enterStatement cStructs).symbol s.token).reserved = true) := by
  obtain ⟨hadvance, hentries, htoken⟩ := h.frame_advance (T := T)
  obtain ⟨-, hsymbol⟩ := h.passed h.sound.token_lt
  have hlt : s.token < (s.advance cStructs).symbols.size :=
    Nat.lt_of_lt_of_le h.sound.token_lt hadvance.symbols_le
  have hvalue : ((s.advance cStructs).symbol s.token).value = l.text := by
    rw [hsymbol]
    exact h.current.1.value
  have hold' : ∀ id ∈ (s.advance cStructs).local? ((s.advance cStructs).symbol s.token).value,
      ((s.advance cStructs).symbol id).reserved = true := by
    rw [hvalue, local?_eq_lookup, hentries]
    intro id hid
    obtain ⟨hlt, hreserved⟩ := hold id hid
    rw [(h.passed hlt).2]
    exact hreserved
  obtain ⟨hreserve, hcases⟩ := frame_reserve ht hlt
    (by rw [hadvance.scope]; exact Nat.lt_of_lt_of_le hsize hadvance.scopes_le) hold'
  have hlt' : s.token < ((s.advance cStructs).reserve s.token).symbols.size :=
    Nat.lt_of_lt_of_le hlt hreserve.symbols_le
  -- marking the keyword changes its kind only, so all else is as it was reserved
  have hself : (s.enterStatement cStructs).symbol s.token =
      { ((s.advance cStructs).reserve s.token).symbol s.token with kind := .statement } :=
    symbol_modifySymbol_self hlt' _
  refine ⟨(hadvance.trans hreserve).trans (frame_modifySymbol ht _),
    Nat.lt_of_lt_of_le htoken hreserve.token_le, by rw [hself], ?_⟩
  change ((s.advance cStructs).reserve s.token).entries = s.entries ∨
    ((s.advance cStructs).reserve s.token).entries = _ ∧ _
  rw [hself]
  rcases hcases with hsame | ⟨hnew, hreserved⟩
  · exact .inl (hsame.trans hentries)
  · refine .inr ⟨?_, by rw [hreserved]⟩
    rw [hnew, hvalue, hentries]

/-! ## Structs -/

/-- What stays when a scope has been opened and closed again. -/
theorem frame_block {s' : State} (h : Frame T s.openScope s')
    (houter : s'.outer = s.openScope.outer) (hsize : s.scope < s.scopes.size) :
    Frame T s s'.closeScope ∧ s'.closeScope.entries = s.entries ∧
      s'.closeScope.scopeAt s.scopes.size = s'.scopeAt s'.scope ∧
      s.scopes.size < s'.closeScope.scopes.size := by
  have hclose : s'.closeScope = { s' with scope := s.scope, outer := s.outer } := by
    rw [State.closeScope, houter]
    rfl
  have hpush : s.openScope.scopes.size = s.scopes.size + 1 := Array.size_push _
  have hlt : s.scopes.size < s'.scopes.size := by
    have := h.scopes_le
    omega
  have hscope : ∀ k < s.scopes.size, s'.scopeAt k = s.scopeAt k := by
    intro k hk
    rw [h.scopeAt k (by omega) (Nat.ne_of_lt hk), scopeAt, scopeAt, State.openScope,
      Array.getD_eq_getD_getElem?, Array.getD_eq_getD_getElem?, Array.getElem?_push_lt hk,
      Array.getElem?_eq_getElem hk]
  rw [hclose]
  refine ⟨⟨h.symbol, h.symbols_le, h.token_le, rfl, Nat.le_of_lt hlt, fun k hk _ => hscope k hk,
    h.diagnostics⟩, ?_, ?_, hlt⟩
  · show (s'.scopeAt s.scope).definitions.entries = _
    rw [hscope _ hsize]
    rfl
  · rw [h.scope]
    rfl

section Ends

variable {keyword tag : SymbolId} {body : ScopeId} {n e : Lexeme} {w : List Lexeme}

theorem symbol_setBody (h : tag < s.symbols.size) :
    (s.setBody tag body).symbol tag =
      { s.symbol tag with
        declaration? := (s.symbol tag).declaration?.map ({ · with innerScope? := some body }) } :=
  symbol_modifySymbol_self h _

/-- A struct with a tag alone. -/
theorem frame_endTag (body : ScopeId) (h : s.Reads (e :: w)) (he : e.IsOperator ";") {t : Lexeme}
    (htag : s.Knows tag t) :
    Frame (fun id => id = tag ∨ s.token ≤ id) s ((s.setBody tag body).expect cStructs ";") ∧
      ((s.setBody tag body).expect cStructs ";").entries = s.entries ∧
      ((s.setBody tag body).expect cStructs ";").symbol tag =
        { s.symbol tag with
          declaration? := (s.symbol tag).declaration?.map ({ · with innerScope? := some body }) } := by
  have h₁ := (h.modifyDeclaration htag.plain ({ · with innerScope? := some body })).reads
  change (s.setBody tag body).Reads (e :: w) at h₁
  have hlt : tag < (s.setBody tag body).symbols.size :=
    Nat.lt_of_lt_of_le htag.plain.lt (frame_modifySymbol (T := fun _ => True) trivial _).symbols_le
  rw [h₁.expect_eq (by decide) he]
  obtain ⟨hframe, hentries, -⟩ := h₁.frame_advance (T := fun id => id = tag ∨ s.token ≤ id)
  refine ⟨(frame_modifySymbol (.inl rfl) _).trans hframe, hentries, ?_⟩
  rw [(h₁.passed hlt).2, symbol_setBody htag.plain.lt]

-- The name of a struct is passed, and the semicolon behind it.
theorem frame_semicolon (h : s.Reads (n :: e :: w)) (he : e.IsOperator ";") :
    Frame T s ((s.advance cStructs).expect cStructs ";") ∧
      ((s.advance cStructs).expect cStructs ";").entries = s.entries ∧
      s.token < ((s.advance cStructs).expect cStructs ";").token ∧
      ∀ id < s.symbols.size, ((s.advance cStructs).expect cStructs ";").symbol id = s.symbol id := by
  have h₁ := h.advance.reads
  rw [h₁.expect_eq (by decide) he]
  obtain ⟨hframe₁, hentries₁, hlt₁⟩ := h.frame_advance (T := fun _ => False)
  obtain ⟨hframe₂, hentries₂, hlt₂⟩ := h₁.frame_advance (T := fun _ => False)
  have hframe := hframe₁.trans hframe₂
  exact ⟨hframe.mono fun _ => False.elim, hentries₂.trans hentries₁, Nat.lt_trans hlt₁ hlt₂,
    fun id hid => hframe.symbol id hid False.elim⟩

/-- A struct with a tag and a typedef name. -/
theorem frame_endTagAndName (h : s.Reads (n :: e :: w)) (hn : n.IsIdent) (he : e.IsOperator ";")
    {t : Lexeme} (htag : s.Knows tag t) (hlt : tag < s.token) (hsize : s.scope < s.scopes.size)
    (hnew : s.local? n.text = none) {s' : State}
    (hs : (((s.setBody tag body).defineAlias s.token keyword tag).advance cStructs).expect
      cStructs ";" = s') :
    Frame (fun id => id = tag ∨ s.token ≤ id) s s' ∧ s'.Knows s.token n ∧
      s'.entries = s.entries ++ [(n.text, s.token)] ∧ s.token < s'.token ∧
      (s'.symbol s.token).kind = .name ∧ (s'.symbol s.token).isAlias = true ∧
      s'.symbol tag =
        { s.symbol tag with
          declaration? := (s.symbol tag).declaration?.map
            ({ · with innerScope? := some body, alias? := some s.token }) } := by
  have h₁ := (h.modifyDeclaration htag.plain ({ · with innerScope? := some body }))
  change s.Passes (s.setBody tag body) (n :: e :: w) at h₁
  have hframe₁ : Frame (fun id => id = tag ∨ s.token ≤ id) s (s.setBody tag body) :=
    frame_modifySymbol (.inl rfl) _
  have htoken : s.token < (s.setBody tag body).symbols.size :=
    Nat.lt_of_lt_of_le h.sound.token_lt hframe₁.symbols_le
  have hget := (h.ordinary.each n List.mem_cons_self).get?_of_ident hn
  have hvalue := h₁.reads.knows_token.spells.value
  obtain ⟨hframe₂, hentries₂, hname, hstruct⟩ := frame_defineAlias (s := s.setBody tag body)
    (T := fun id => id = tag ∨ s.token ≤ id) keyword (.inr (Nat.le_refl _)) (.inl rfl) htoken
    (Nat.lt_trans hlt htoken) (Nat.ne_of_gt hlt) hsize (by
      change (s.setBody tag body).local? ((s.setBody tag body).symbol (s.setBody tag body).token).value
        = none
      rw [hvalue]
      exact hnew)
  have h₂ := h₁.trans (h₁.reads.defineAlias h₁.reads.knows_token hn hget
    (fun _ => h₁.reads.kind_of_name hn.1) (h₁.keeps.knows tag t htag) keyword)
  change s.Passes ((s.setBody tag body).defineAlias s.token keyword tag) (n :: e :: w) at h₂
  -- the name and the semicolon are passed, which changes no symbol
  have h₃ := h₂.trans h₂.reads.advance
  have h₄ := h₃.trans (h₃.reads.expect (by decide) he)
  obtain ⟨hframe₃, hentries₃, hlt₃, hsymbol₃⟩ := frame_semicolon
    (T := fun id => id = tag ∨ s.token ≤ id) h₂.reads he
  rw [token_defineAlias] at hlt₃
  rw [hs] at h₄ hframe₃ hentries₃ hlt₃ hsymbol₃
  have htoken₂ := Nat.lt_of_lt_of_le htoken hframe₂.symbols_le
  have hself := (hsymbol₃ s.token htoken₂).trans hname
  refine ⟨(hframe₁.trans hframe₂).trans hframe₃, h₄.keeps.knows _ n h.knows_token, ?_, hlt₃,
    by rw [hself]; rfl, by rw [hself]; rfl, ?_⟩
  · rw [hentries₃, hentries₂]
    change s.entries ++ [(((s.setBody tag body).symbol (s.setBody tag body).token).value, s.token)] = _
    rw [hvalue]
  · rw [hsymbol₃ tag (Nat.lt_trans hlt htoken₂), hstruct, symbol_setBody htag.plain.lt]
    cases (s.symbol tag).declaration? <;> rfl

/-- A struct with a typedef name alone. -/
theorem frame_endName (h : s.Reads (n :: e :: w)) (hn : n.IsIdent) (he : e.IsOperator ";")
    (hsize : s.scope < s.scopes.size) (hnew : s.local? n.text = none) {s' : State}
    (hs : (((s.define s.token keyword).setBody s.token body).advance cStructs).expect
      cStructs ";" = s') :
    Frame (s.token ≤ ·) s s' ∧ s'.Knows s.token n ∧
      s'.entries = s.entries ++ [(n.text, s.token)] ∧ s.token < s'.token ∧
      s'.symbol s.token =
        s.declaredAs (s.symbol s.token) { declaredType := keyword, innerScope? := some body } := by
  have hvalue := h.knows_token.spells.value
  obtain ⟨hframe₁, hentries₁, hname⟩ := frame_define (T := (s.token ≤ ·)) keyword
    (Nat.le_refl _) h.sound.token_lt hsize (by rw [hvalue]; exact hnew)
  have h₁ := h.passes_define hn keyword
  have htoken : s.token < (s.define s.token keyword).symbols.size :=
    Nat.lt_of_lt_of_le h.sound.token_lt hframe₁.symbols_le
  have hplain := (h₁.keeps.knows _ n h.knows_token).plain
  have h₂ := h₁.trans (h₁.reads.modifyDeclaration hplain ({ · with innerScope? := some body }))
  change s.Passes ((s.define s.token keyword).setBody s.token body) (n :: e :: w) at h₂
  have h₃ := h₂.trans h₂.reads.advance
  have h₄ := h₃.trans (h₃.reads.expect (by decide) he)
  have hframe₂ : Frame (s.token ≤ ·) (s.define s.token keyword)
      ((s.define s.token keyword).setBody s.token body) := frame_modifySymbol (Nat.le_refl _) _
  obtain ⟨hframe₃, hentries₃, hlt₃, hsymbol₃⟩ :=
    frame_semicolon (T := (s.token ≤ ·)) h₂.reads he
  have htoken₂ := Nat.lt_of_lt_of_le htoken hframe₂.symbols_le
  change (s.define s.token keyword).token < _ at hlt₃
  rw [token_define] at hlt₃
  rw [hs] at h₄ hframe₃ hentries₃ hlt₃ hsymbol₃
  refine ⟨(hframe₁.trans hframe₂).trans hframe₃, h₄.keeps.knows _ n h.knows_token, ?_, hlt₃, ?_⟩
  · rw [hentries₃]
    change (s.define s.token keyword).entries = _
    rw [hentries₁, hvalue]
  · rw [hsymbol₃ s.token htoken₂, symbol_setBody htoken, hname]
    rfl

end Ends

end Parse.State

end CStruct
