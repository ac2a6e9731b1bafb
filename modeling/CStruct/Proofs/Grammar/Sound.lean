import CStruct.Proofs.Grammar.Steps

/-!
# What is read without errors the grammar derives

A reader that reports no error has passed a word of its nonterminal. As diagnostics only grow, a
result without errors comes from steps without errors, and each of these says what the token was.
-/

namespace CStruct.Parse

open SymbolTable State Grammar

variable {s s' : State} {keyword : SymbolId} {u : List Lexeme} {fuel : Nat}

namespace State

theorem Grows.absurd (h : s.Grows s') (herrors : s.hasErrors = true)
    (hclean : s'.hasErrors = false) : False := by
  rw [h.hasErrors_eq_false hclean] at herrors
  cases herrors

theorem Ordinary.not_struct {l : Lexeme} (h : Ordinary (l :: u)) (hl : l.Declares) :
    ∀ l' ∈ u.head?, ¬l'.IsStructKeyword := by
  intro l' hl'
  cases u with
  | nil => cases hl'
  | cons l'' u =>
    cases hl'
    exact h.chain.rel hl

theorem Reads.head_of_name (h : s.Reads u) (hstruct : ∀ l ∈ u.head?, ¬l.IsStructKeyword)
    (hkind : s.current.kind = .name) : ∃ n w, u = n :: w ∧ n.IsIdent := by
  obtain ⟨n, hn, hname⟩ := h.name_iff.1 hkind
  cases u with
  | nil => cases hn
  | cons l u =>
    cases hn
    exact ⟨n, u, rfl, hname, fun htext => hstruct n rfl ⟨hname, htext⟩⟩

theorem Reads.head_of_check (h : s.Reads u) {id : String} (hid : id ∈ cOperators)
    (hcheck : s.check id = true) : ∃ l w, u = l :: w ∧ l.IsOperator id := by
  obtain ⟨l, hl, hop⟩ := (h.check_iff hid).1 hcheck
  cases u with
  | nil => cases hl
  | cons l' u =>
    cases hl
    exact ⟨l, u, rfl, hop⟩

theorem Reads.head_of_expect (h : s.Reads u) {id : String} (hid : id ∈ cOperators)
    (hclean : (s.expect cStructs id).hasErrors = false) :
    ∃ l w, u = l :: w ∧ l.IsOperator id ∧ s.Passes (s.expect cStructs id) w := by
  cases hcheck : s.check id with
  | false =>
    rw [hasErrors_expect hcheck] at hclean
    cases hclean
  | true =>
    obtain ⟨l, w, rfl, hop⟩ := h.head_of_check hid hcheck
    exact ⟨l, w, rfl, hop, h.expect hid hop⟩

/-- What can be an operand is a name or a number. -/
theorem nud_cases (h : Ordinary u) :
    (headRole u).nud = none ∨ ∃ l w, u = l :: w ∧ l.prototype.role = .ofDeclared ∧
      (l.IsIdent ∨ l.kind = .number) := by
  cases u with
  | nil => exact .inl rfl
  | cons l u =>
    rw [headRole]
    rcases (h.each l List.mem_cons_self).cases with
      hl | ⟨hl, hget⟩ | ⟨hl, p, hp⟩ | hl | ⟨id, hid, hl⟩
    · exact .inl (by rw [Lexeme.prototype_struct hl])
    · exact .inr ⟨l, u, rfl, by rw [Lexeme.prototype_ident hl hget], .inl hl⟩
    · exact .inl (by rw [Lexeme.prototype_type hl hp])
    · exact .inr ⟨l, u, rfl, by rw [Lexeme.prototype_number hl], .inr hl⟩
    · exact .inl (by rw [Lexeme.prototype_operator hl hid])

end State

/-! ## Members -/

theorem dimension_derives {name : Lexeme} {id : SymbolId} (h : s.Reads u) (hname : s.Knows id name)
    (hs : dimension cStructs id s = some s') (hclean : s'.hasErrors = false) :
    ∃ d c w, u = d :: c :: w ∧ d.kind = .number ∧ c.IsOperator "]" ∧ s.Passes s' w := by
  obtain ⟨⟨top, s₁⟩, hexpression, hs'⟩ := Option.map_eq_some_iff.1 hs
  dsimp only at hs'
  -- `s₂` is the state before the closing bracket
  obtain ⟨s₂, hs₂⟩ : ∃ s₂, (if (s₁.symbol top).kind = .literal then s₁
      else s₁.report top .dimensionNotLiteral) = s₂ := ⟨_, rfl⟩
  rw [hs₂] at hs'
  have hbracket : (s₂.expect cStructs "]").hasErrors = false := by
    rw [← hclean, ← hs']
    rfl
  have hclean₂ := (grows_expect cStructs "]" s₂).hasErrors_eq_false hbracket
  have hliteral : (s₁.symbol top).kind = .literal := by
    by_contra hliteral
    rw [← hs₂, if_neg hliteral, hasErrors_report s₁ top rfl] at hclean₂
    cases hclean₂
  rw [if_pos hliteral] at hs₂
  subst hs₂
  rcases nud_cases h.ordinary with hnud | ⟨d, w, rfl, hrole, hd⟩
  · rw [hasErrors_expression h hnud hexpression] at hclean₂
    cases hclean₂
  · obtain ⟨rfl, rfl⟩ := expression_of_operand h (by rw [hrole]; rfl) hexpression
    have hnumber : d.kind = .number := by
      have hkind : (s.symbol s.token).kind = kindOf d.kind := h.current.2
      rw [(h.passed h.sound.token_lt).2, hkind] at hliteral
      cases hd with
      | inl hd =>
        rw [hd.1] at hliteral
        cases hliteral
      | inr hd => exact hd
    have h₁ := h.advance
    obtain ⟨c, w, rfl, hc, h₂⟩ := h₁.reads.head_of_expect (by decide) hbracket
    have h₃ := h₁.trans h₂
    have h₄ := h₃.trans (h₃.reads.modifyDeclaration (h₃.keeps.knows id name hname).plain
      ({ · with dimension? := some s.token }))
    rw [hs'] at h₄
    exact ⟨d, c, w, rfl, hnumber, hc, h₄⟩

theorem declarator_derives (h : s.Reads u) (hstruct : ∀ l ∈ u.head?, ¬l.IsStructKeyword)
    (hs : declarator cStructs keyword s = some s') (hclean : s'.hasErrors = false) :
    ∃ v w, u = v ++ w ∧ Derives .declarator v ∧ s.Passes s' w := by
  unfold declarator at hs
  split at hs
  · rename_i hkind
    obtain ⟨n, w, rfl, hn⟩ := h.head_of_name hstruct hkind
    have hget := (h.ordinary.each n List.mem_cons_self).get?_of_ident hn
    have h₁ := h.define h.knows_token hn hget (fun _ => hkind) keyword
    have h₂ := h₁.trans h₁.reads.advance
    dsimp only at hs
    split at hs
    · rename_i hcheck
      obtain ⟨o, w, rfl, ho⟩ := h₂.reads.head_of_check (by decide) hcheck
      have h₃ := h₂.trans h₂.reads.advance
      obtain ⟨d, c, w, rfl, hd, hc, h₄⟩ :=
        dimension_derives h₃.reads (h₃.keeps.knows _ n h.knows_token) hs hclean
      exact ⟨[n, o, d, c], w, rfl, .array hn ho hd hc, h₃.trans h₄⟩
    · cases hs
      exact ⟨[n], w, rfl, .scalar hn, h₂⟩
  · cases hs
    have hseverity : Problem.memberNameMissing.severity = .error := rfl
    have hreport := hasErrors_report s s.token hseverity
    split at hclean
    · rw [hreport] at hclean
      cases hclean
    · exact ((grows_advance cStructs _).absurd hreport hclean).elim

theorem declarators_derives (h : s.Reads u) (hstruct : ∀ l ∈ u.head?, ¬l.IsStructKeyword)
    (hs : declarators cStructs keyword fuel s = some s') (hclean : s'.hasErrors = false) :
    ∃ v w, u = v ++ w ∧ Derives .declarators v ∧ s.Passes s' w := by
  induction fuel using Nat.strongRecOn generalizing s u with
  | ind fuel ih =>
    obtain ⟨s₁, hs₁, hcases⟩ := declarators_cases hs
    rcases hcases with ⟨-, rfl⟩ | ⟨hcheck, rest, rfl, hs₂⟩
    · obtain ⟨v, w, rfl, hv, h₁⟩ := declarator_derives h hstruct hs₁ hclean
      exact ⟨v, w, rfl, .last hv, h₁⟩
    · have hgrows := (grows_advance cStructs s₁).trans (grows_declarators hs₂)
      obtain ⟨v, w, rfl, hv, h₁⟩ :=
        declarator_derives h hstruct hs₁ (hgrows.hasErrors_eq_false hclean)
      obtain ⟨c, w, rfl, hc⟩ := h₁.reads.head_of_check (by decide) hcheck
      have h₂ := h₁.trans h₁.reads.advance
      obtain ⟨v', w, rfl, hv', h₃⟩ := ih rest (Nat.lt_succ_self rest) h₂.reads
        (h₁.reads.ordinary.not_struct (.inr (.inl hc))) hs₂
      exact ⟨v ++ c :: v', w, by simp, .more hv hc hv', h₂.trans h₃⟩

theorem members_derives (h : s.Reads u) (hstruct : ∀ l ∈ u.head?, ¬l.IsStructKeyword)
    (hs : members cStructs keyword s = some s') (hclean : s'.hasErrors = false) :
    s.isGlobal = false ∧ ∃ v e w, u = v ++ e :: w ∧ Derives .declarators v ∧ e.IsOperator ";" ∧
      s.Passes s' w := by
  unfold members at hs
  split at hs
  · cases hs
    rw [hasErrors_report s keyword rfl] at hclean
    cases hclean
  · rename_i hglobal
    refine ⟨Bool.eq_false_iff.2 hglobal, ?_⟩
    obtain ⟨s₁, hs₁, hs'⟩ := Option.map_eq_some_iff.1 hs
    split at hs'
    · rw [← hs', State.reportExpected, hasErrors_report s₁ s₁.token rfl] at hclean
      cases hclean
    · subst hs'
      obtain ⟨v, w, rfl, hv, h₁⟩ := declarators_derives h hstruct hs₁
        ((grows_expect cStructs ";" s₁).hasErrors_eq_false hclean)
      obtain ⟨e, w, rfl, he, h₂⟩ := h₁.reads.head_of_expect (by decide) hclean
      exact ⟨v, e, w, rfl, hv, he, h₁.trans h₂⟩

/-! ## Structs -/

theorem typedefName_passes (keyword : SymbolId) {tag? : Option SymbolId} {tag : Lexeme}
    (body : ScopeId) (h : s.Reads u) (hstruct : ∀ l ∈ u.head?, ¬l.IsStructKeyword)
    (htag : ∀ id, tag? = some id → s.Knows id tag) :
    ∃ (name? : Option Lexeme) (w : List Lexeme), u = name?.toList ++ w ∧
      (∀ n ∈ name?, n.IsIdent) ∧
      (typedefName cStructs keyword tag? body s).1.isSome = (tag?.isSome || name?.isSome) ∧
      s.Passes (typedefName cStructs keyword tag? body s).2 w := by
  unfold typedefName
  by_cases hkind : s.current.kind = .name
  · obtain ⟨n, w, rfl, hn⟩ := h.head_of_name hstruct hkind
    have hget := (h.ordinary.each n List.mem_cons_self).get?_of_ident hn
    rw [if_pos hkind]
    refine ⟨some n, w, rfl, by rintro _ ⟨⟩; exact hn, ?_⟩
    cases tag? with
    | some tag =>
      have h₁ := h.defineAlias h.knows_token hn hget (fun _ => hkind) (htag tag rfl) keyword
      exact ⟨rfl, h₁.trans h₁.reads.advance⟩
    | none =>
      have h₁ := h.define h.knows_token hn hget (fun _ => hkind) keyword
      have h₂ := h₁.trans (h₁.reads.modifyDeclaration
        (h₁.keeps.knows _ _ h.knows_token).plain ({ · with innerScope? := some body }))
      exact ⟨rfl, h₂.trans h₂.reads.advance⟩
  · rw [if_neg hkind]
    exact ⟨none, u, rfl, nofun, (Bool.or_false _).symm, h.passes⟩

theorem structEnd_derives {s₀ : State} {tag? : Option SymbolId} {tag : Lexeme} {body : ScopeId}
    (h : s₀.openScope.Passes s u) (htag : ∀ id, tag? = some id → s₀.Knows id tag)
    (hclean : (structEnd cStructs keyword tag? body s).2.hasErrors = false) :
    ∃ (c : Lexeme) (name? : Option Lexeme) (e : Lexeme) (w : List Lexeme),
      u = c :: (name?.toList ++ e :: w) ∧ c.IsOperator closeBrace ∧ (∀ n ∈ name?, n.IsIdent) ∧
      (tag?.isSome || name?.isSome) = true ∧ e.IsOperator ";" ∧
      s₀.Passes (structEnd cStructs keyword tag? body s).2 w := by
  have h₁ := passes_block h
  unfold structEnd at hclean ⊢
  dsimp only at hclean ⊢
  generalize hs₂ : s.closeScope.expect cStructs closeBrace = s₂ at hclean ⊢
  have hbody : s₂.Grows (tag?.elim s₂ fun tag => s₂.setBody tag body) := by
    cases tag? with
    | none => exact .refl s₂
    | some tag => exact .of_eq rfl
  obtain ⟨s₃, hs₃⟩ : ∃ s₃, (tag?.elim s₂ fun tag => s₂.setBody tag body) = s₃ := ⟨_, rfl⟩
  rw [hs₃] at hbody hclean ⊢
  have hname := grows_typedefName cStructs s₃ keyword tag? body
  have hclean₄ := (grows_expect cStructs ";" _).hasErrors_eq_false hclean
  -- without a name before or behind the body there would be an error
  have hsome : (typedefName cStructs keyword tag? body s₃).1.isNone = false := by
    cases hnone : (typedefName cStructs keyword tag? body s₃).1.isNone with
    | false => rfl
    | true =>
      rw [hnone, if_pos rfl, hasErrors_report _ _ rfl] at hclean₄
      cases hclean₄
  rw [hsome] at hclean hclean₄ ⊢
  -- errors stay, so there were none before either
  have hclean₂ : s₂.hasErrors = false := (hbody.trans hname).hasErrors_eq_false hclean₄
  rw [← hs₂] at hclean₂
  obtain ⟨c, w, rfl, hc, h₂⟩ := h₁.reads.head_of_expect (by decide) hclean₂
  rw [hs₂] at h₂
  have h₂ := h₁.trans h₂
  have h₃ : s₀.Passes s₃ w := by
    rw [← hs₃]
    cases tag? with
    | none => exact h₂
    | some id =>
      exact h₂.trans (h₂.reads.modifyDeclaration (h₂.keeps.knows id tag (htag id rfl)).plain
        ({ · with innerScope? := some body }))
  obtain ⟨name?, w, rfl, hident, hnamed, h₄⟩ := typedefName_passes keyword body h₃.reads
    (h₁.reads.ordinary.not_struct (.inr (.inr (.inl hc))))
    (fun id hid => h₃.keeps.knows id tag (htag id hid))
  obtain ⟨e, w, rfl, he, h₅⟩ := h₄.reads.head_of_expect (by decide) hclean
  rw [← Option.not_isSome, hnamed, Bool.not_eq_false'] at hsome
  exact ⟨c, name?, e, w, rfl, hc, hident, hsome, he, (h₃.trans h₄).trans h₅⟩

/-- A reader of bodies that passes only what the grammar derives inside a struct. -/
def DerivesBodies (readBody : State → Option State) : Prop :=
  ∀ {s s' : State} {u : List Lexeme}, s.Reads u → s.isGlobal = false → readBody s = some s' →
    s'.hasErrors = false → ∃ v w, u = v ++ w ∧ Derives (.statements true) v ∧ s.Passes s' w

theorem structBody_derives {readBody : State → Option State} (hbody : DerivesBodies readBody)
    (hgrows : ∀ s s', readBody s = some s' → s.Grows s') {tag? goesBy? : Option SymbolId}
    (tag : Lexeme) (h : s.Reads u) (htag : ∀ id, tag? = some id → s.Knows id tag)
    (hs : structBody cStructs readBody keyword tag? s = some (goesBy?, s'))
    (hclean : s'.hasErrors = false) :
    ∃ (o : Lexeme) (v : List Lexeme) (c : Lexeme) (name? : Option Lexeme) (e : Lexeme)
      (w : List Lexeme), u = o :: (v ++ c :: (name?.toList ++ e :: w)) ∧
      o.IsOperator openBrace ∧ Derives (.statements true) v ∧ c.IsOperator closeBrace ∧
      (∀ n ∈ name?, n.IsIdent) ∧ (tag?.isSome || name?.isSome) = true ∧ e.IsOperator ";" ∧
      s.Passes s' w := by
  obtain ⟨s₂, hs₂, hs'⟩ := Option.map_eq_some_iff.1 hs
  have hend := grows_structEnd cStructs s₂ keyword tag?
    (s.expect cStructs openBrace).openScope.scope
  rw [hs'] at hend
  have hclean₂ := hend.hasErrors_eq_false hclean
  have hclean₁ : (s.expect cStructs openBrace).hasErrors = false :=
    (hgrows _ _ hs₂).hasErrors_eq_false hclean₂
  obtain ⟨o, w, rfl, ho, h₁⟩ := h.head_of_expect (by decide) hclean₁
  obtain ⟨v, w, rfl, hv, h₂⟩ := hbody h₁.reads.openScope rfl hs₂ hclean₂
  obtain ⟨c, name?, e, w, rfl, hc, hname, hnamed, he, h₃⟩ :=
    structEnd_derives h₂ (fun id hid => h₁.keeps.knows id tag (htag id hid))
      (by rw [hs']; exact hclean)
  rw [hs'] at h₃
  exact ⟨o, v, c, name?, e, w, rfl, ho, hv, hc, hname, hnamed, he, h₁.trans h₃⟩

/-- What stands behind the keyword of a struct. -/
theorem structDeclaration_derives {readBody : State → Option State}
    (hbody : DerivesBodies readBody) (hgrows : ∀ s s', readBody s = some s' → s.Grows s')
    (h : s.Reads u) (hstruct : ∀ l ∈ u.head?, ¬l.IsStructKeyword) {goesBy? : Option SymbolId}
    (hs : structDeclaration cStructs readBody keyword s = some (goesBy?, s'))
    (hclean : s'.hasErrors = false) :
    ∃ v w, u = v ++ w ∧ (∀ k : Lexeme, k.IsStructKeyword → Derives .struct (k :: v)) ∧
      s.Passes s' w := by
  by_cases hkind : s.current.kind = .name
  · obtain ⟨n, w, rfl, hn⟩ := h.head_of_name hstruct hkind
    have hget := (h.ordinary.each n List.mem_cons_self).get?_of_ident hn
    have h₁ := h.advance
    have htag := h₁.keeps.knows _ n h.knows_token
    rw [structDeclaration_of_name hkind] at hs
    split at hs
    -- a semicolon behind the tag: the struct is declared ahead
    · rename_i hcheck
      obtain ⟨e, w, rfl, he⟩ := h₁.reads.head_of_check (by decide) hcheck
      have h₂ := h₁.trans h₁.reads.advance
      have h₃ := h₂.reads.forwardDeclaration keyword
        (h₂.keeps.knows _ n h.knows_token) hn hget (h₁.reads.passed htag.plain.lt).1
      rw [Option.some.inj hs] at h₃
      exact ⟨[n, e], w, rfl, fun k hk => .forward hk hn he, h₂.trans h₃⟩
    · have h₂ := h₁.trans (h₁.reads.define htag hn hget
        (fun heq => absurd heq (h.passed h.sound.token_lt).1) keyword)
      obtain ⟨o, v, c, name?, e, w, rfl, ho, hv, hc, hname, hnamed, he, h₃⟩ :=
        structBody_derives hbody hgrows n h₂.reads
          (fun id hid => Option.some.inj hid ▸ h₂.keeps.knows _ n h.knows_token) hs hclean
      refine ⟨n :: (o :: (v ++ c :: (name?.toList ++ [e]))), w, by simp, fun k hk => ?_,
        h₂.trans h₃⟩
      have hderives := @Derives.struct _ _ _ _ (some n) _ _ hk (by rintro _ ⟨⟩; exact hn) ho hv hc
        hname (.inl rfl) he
      simpa using hderives
  · rw [structDeclaration_of_not_name hkind] at hs
    split at hs
    · have hs' := congrArg Prod.snd (Option.some.inj hs)
      rw [← show _ = s' from hs', forwardDeclaration, hasErrors_report _ _ rfl] at hclean
      cases hclean
    · obtain ⟨o, v, c, name?, e, w, rfl, ho, hv, hc, hname, hnamed, he, h₁⟩ :=
        structBody_derives hbody hgrows default h
          (by intro id hid; cases hid) hs hclean
      refine ⟨o :: (v ++ c :: (name?.toList ++ [e])), w, by simp, fun k hk => ?_, h₁⟩
      have hderives := @Derives.struct _ _ _ _ none _ _ hk (by rintro _ ⟨⟩) ho hv hc hname
        (.inr hnamed) he
      simpa using hderives

/-! ## Statements -/

theorem expressionStatement_derives (h : s.Reads u)
    (hs : expressionStatement cStructs s = some s') (hclean : s'.hasErrors = false) :
    ∃ n w, u = n :: w ∧ (n.IsIdent ∨ n.kind = .number) ∧ s.Passes s' w := by
  obtain ⟨⟨top, s₁⟩, hexpression, hs'⟩ := Option.map_eq_some_iff.1 hs
  have htop : s₁ = s' := by
    dsimp only at hs'
    split at hs'
    · exact hs'
    · rw [← hs', hasErrors_report s₁ top rfl] at hclean
      cases hclean
  subst htop
  rcases nud_cases h.ordinary with hnud | ⟨n, w, rfl, hrole, hn⟩
  · rw [hasErrors_expression h hnud hexpression] at hclean
    cases hclean
  · obtain ⟨rfl, rfl⟩ := expression_of_operand h (by rw [hrole]; rfl) hexpression
    exact ⟨n, w, rfl, hn, h.advance⟩

/-- What starts a statement is the keyword of a struct, or a type. -/
theorem head_of_std (h : s.Reads u) (hstd : s.current.role.std ≠ none) :
    ∃ l w, u = l :: w ∧ (l.IsStructKeyword ∧ s.current.role.std = some .struct ∨
      l.kind = .type ∧ s.current.role.std = some .member) := by
  rw [h.role] at hstd ⊢
  cases u with
  | nil => exact absurd rfl hstd
  | cons l w =>
    refine ⟨l, w, rfl, ?_⟩
    rw [headRole] at hstd ⊢
    rcases (h.ordinary.each l List.mem_cons_self).cases with
      hl | ⟨hl, hget⟩ | ⟨hl, p, hp⟩ | hl | ⟨id, hid, hl⟩
    · exact .inl ⟨hl, by rw [Lexeme.prototype_struct hl]⟩
    · rw [Lexeme.prototype_ident hl hget] at hstd
      exact absurd rfl hstd
    · exact .inr ⟨hl, by rw [Lexeme.prototype_type hl hp]⟩
    · rw [Lexeme.prototype_number hl] at hstd
      exact absurd rfl hstd
    · rw [Lexeme.prototype_operator hl hid] at hstd
      exact absurd rfl hstd

/-- The keyword of a statement says which of the statements the grammar derives. -/
theorem statement_derives {readBody : State → Option State} (hbody : DerivesBodies readBody)
    (hgrows : ∀ s s', readBody s = some s' → s.Grows s') {inside : Bool} (h : s.Reads u)
    (hinside : s.isGlobal = !inside) {name? : Option SymbolId}
    (hs : statement cStructs readBody s = some (name?, s')) (hclean : s'.hasErrors = false) :
    ∃ v w, u = v ++ w ∧ s.Passes s' w ∧
      ∀ x, Derives (.statements inside) x → Derives (.statements inside) (v ++ x) := by
  unfold statement at hs
  split at hs
  · rename_i hstd
    obtain ⟨k, w, rfl, ⟨hk, -⟩ | ⟨-, hmember⟩⟩ :=
      head_of_std h (by rw [hstd]; exact Option.some_ne_none _)
    · have h₁ := h.enterStatement (.inl hk.1)
      obtain ⟨v, w, rfl, hv, h₂⟩ := structDeclaration_derives hbody hgrows h₁.reads
        (h.ordinary.not_struct (.inr (.inr (.inr hk)))) hs hclean
      exact ⟨k :: v, w, rfl, h₁.trans h₂, fun x hx => .consStruct (hv k hk) hx⟩
    · cases hstd.symm.trans hmember
  · rename_i hstd
    obtain ⟨t, w, rfl, ⟨-, hstruct⟩ | ⟨ht, -⟩⟩ :=
      head_of_std h (by rw [hstd]; exact Option.some_ne_none _)
    · cases hstd.symm.trans hstruct
    · obtain ⟨s₁, hs₁, heq⟩ := Option.map_eq_some_iff.1 hs
      cases heq
      have h₁ := h.enterStatement (.inr ht)
      obtain ⟨hglobal, v, e, w, rfl, hv, he, h₂⟩ := members_derives h₁.reads
        (h.ordinary.not_struct (.inl ht)) hs₁ hclean
      -- outside of all structs there would be an error
      have htrue : inside = true := by
        rw [State.isGlobal, h₁.keeps.outer] at hglobal
        rw [State.isGlobal, hglobal] at hinside
        cases inside
        · cases hinside
        · rfl
      subst htrue
      exact ⟨t :: v ++ [e], w, by simp, h₁.trans h₂,
        fun x hx => .consMembers (.members ht hv he) hx⟩
  · obtain ⟨s₁, hs₁, heq⟩ := Option.map_eq_some_iff.1 hs
    cases heq
    obtain ⟨n, w, rfl, hn, h₁⟩ := expressionStatement_derives h hs₁ hclean
    exact ⟨[n], w, rfl, h₁, fun x hx => .operand hn hx⟩

theorem statements_derives {inside : Bool} (h : s.Reads u) (hinside : s.isGlobal = !inside)
    {names : List SymbolId} (hs : statements cStructs fuel s = some (names, s'))
    (hclean : s'.hasErrors = false) :
    ∃ v w, u = v ++ w ∧ Derives (.statements inside) v ∧ s.Passes s' w := by
  induction fuel using Nat.strongRecOn generalizing s s' u inside names with
  | ind fuel ih =>
    rcases statements_cases hs with
      ⟨-, -, rfl⟩ | ⟨-, rest, name?, s₁, others, rfl, -, hs₁, hs₂⟩
    · exact ⟨[], u, rfl, .nil, h.passes⟩
    · have hlt := Nat.lt_succ_self rest
      have hbody : DerivesBodies (bodyReader cStructs rest) := by
        intro s s' u h hinside hs hclean
        obtain ⟨names, hs⟩ := bodyReader_cases hs
        exact ih rest hlt h hinside hs hclean
      obtain ⟨v, w, rfl, h₁, hv⟩ := statement_derives hbody (fun _ _ => grows_bodyReader) h hinside
        hs₁ ((grows_statements hs₂).hasErrors_eq_false hclean)
      have hinside₁ : s₁.isGlobal = !inside := by
        rw [State.isGlobal, h₁.keeps.outer]
        exact hinside
      obtain ⟨v', w, rfl, hv', h₂⟩ := ih rest hlt h₁.reads hinside₁ hs₂ hclean
      exact ⟨v ++ v', w, (List.append_assoc _ _ _).symm, hv v' hv', h₁.trans h₂⟩

/-- A source that is read without errors the grammar derives. -/
theorem program_derives (h : s.Reads u) (hglobal : s.isGlobal = true) {names : List SymbolId}
    (hs : program cStructs fuel s = some (names, s')) (hclean : s'.hasErrors = false) :
    Program u := by
  obtain ⟨first, s₁, hs₁, hcases⟩ := program_cases hs
  rcases hcases with ⟨hend, -, rfl⟩ | ⟨-, rest, others, rfl, -, hs₂⟩
  · have hinside : s.isGlobal = !false := hglobal
    obtain ⟨v, w, rfl, hv, h₁⟩ := statements_derives h hinside hs₁ hclean
    rw [h₁.reads.check_end_iff.1 hend, List.append_nil]
    exact hv
  · have hgrows := (grows_advance cStructs _).trans (grows_program hs₂)
    exact (hgrows.absurd (hasErrors_report s₁ s₁.token rfl) hclean).elim

end CStruct.Parse
