import CStruct.Proofs.Declared.Statements

/-!
# The declarations of a source

Wherever reading a source comes to an end, with any table and any lexemes, its declarations, scopes
and entries agree: the scopes form a tree in which each body stands where its struct was declared,
and a typedef name and its struct know of each other, both of them alone.
-/

namespace CStruct.Parse

open SymbolTable State

variable {t : SymbolTable} {lexemes : List Lexeme} {endPosition : Position}

/-- Before anything has been read, there is one scope and no declaration. -/
theorem consistent_ofLexemes (lexemes : List Lexeme) (endPosition : Position) :
    (State.ofLexemes lexemes endPosition).Consistent fun _ => False where
  declarations := fun d hd => absurd rfl hd
  indexed := fun k name id hk => by
    rw [scopeAt_ofLexemes] at hk
    cases hk
  nested :=
    { root := rfl
      parent? := fun k hk hlt => absurd hlt (Nat.not_lt_of_le hk)
      open_lt := fun k hk => by
        rw [List.mem_singleton.1 hk]
        exact Nat.zero_lt_one
      body := nofun
      unique := nofun
      unowned := nofun }
  inside := fun h => absurd rfl h

/-- What is known of the last state, and of the declarations that are listed. -/
theorem brings_ofLexemes {u : TranslationUnit}
    (h : TranslationUnit.ofLexemes? t lexemes endPosition = some u) :
    ∃ names s', program t ((State.ofLexemes lexemes endPosition).advance t).fuel
        ((State.ofLexemes lexemes endPosition).advance t) = some (names, s') ∧
      u = .ofState names s' ∧ s'.Steady ∧ s'.Consistent (fun _ => False) ∧ s'.scope = 0 ∧
      s'.outer = [] ∧ Listed 0 0 1 names s' := by
  obtain ⟨⟨names, s'⟩, hs', rfl⟩ := Option.map_eq_some_iff.1 h
  obtain ⟨hs, hc⟩ := (consistent_ofLexemes lexemes endPosition).pass rfl
    (fun d _ hd => absurd rfl hd) t
  have hbrings := brings_program hs hc hs'
  have hscope := scope_advance (t := t) (s := State.ofLexemes lexemes endPosition)
  refine ⟨names, s', hs', rfl, hbrings.steady, hbrings.consistent, hbrings.scope.trans hscope.1,
    hbrings.outer.trans hscope.2, ?_⟩
  have hlisted := hbrings.listed
  rw [token_advance rfl, hscope.1, scopes_advance] at hlisted
  exact hlisted

/-! ## What is known of one declaration -/

namespace State

variable {s : State} {d b type : SymbolId} {k : ScopeId}

theorem Consistent.made (h : s.Consistent fun _ => False) (hd : ¬s.Undeclared d) : s.Made d :=
  (h.declarations d hd).resolve_left not_false

theorem not_undeclared_of_innerScope? (h : (s.symbol d).innerScope? = some k) :
    ¬s.Undeclared d := by
  intro hnone
  rw [Nested.innerScope?_eq_none hnone] at h
  cases h

theorem not_undeclared_of_isDeclaration (h : (s.symbol d).isDeclaration = true) :
    ¬s.Undeclared d := fun hnone => not_isDeclaration hnone h

/-- Every declared name was declared in a scope with a keyword before it. -/
theorem Made.isDeclared (h : s.Made d) : ∃ k std x, s.IsDeclared d k std x := by
  cases h with
  | member hk h => exact ⟨_, _, _, h⟩
  | forward h htag hend => exact ⟨_, _, _, h⟩
  | tagged h htag hbody halias => exact ⟨_, _, _, h⟩
  | untagged h hname => exact ⟨_, _, _, h⟩
  | aliased h htag => exact ⟨_, _, _, h⟩

/-- Only structs that are no typedef names of others have a body. -/
theorem Made.of_innerScope? (h : s.Made d) (hk : (s.symbol d).innerScope? = some k) :
    (s.symbol d).isDeclaration = true ∧ (s.symbol d).isAlias = false ∧
      ∃ j, (s.symbol d).scope? = some j := by
  cases h with
  | member _ h =>
    rw [h.innerScope?_eq] at hk
    cases hk
  | forward h =>
    rw [h.innerScope?_eq] at hk
    cases hk
  | tagged h => exact ⟨h.isDeclaration, h.isAlias_eq, _, h.scope?⟩
  | untagged h => exact ⟨h.isDeclaration, h.isAlias_eq, _, h.scope?⟩
  | aliased h =>
    rw [h.innerScope?_eq] at hk
    cases hk

/-- What a struct statement declares has no body if and only if it is a typedef name or stands ahead
of the body. -/
theorem Made.innerScope?_eq_none_iff (h : s.Made d)
    (htype : (s.symbol d).declaredType? = some type)
    (hstd : (s.symbol type).role.std = some .struct) :
    (s.symbol d).innerScope? = none ↔
      (s.symbol d).isAlias = true ∨ d = type + 1 ∧ (s.symbol (d + 1)).id = ";" := by
  cases h with
  | member _ h =>
    rw [h.declaredType?_eq] at htype
    cases htype
    exact absurd (hstd.symm.trans h.keyword.std) nofun
  | forward h htag hend =>
    rw [h.declaredType?_eq] at htype
    cases htype
    exact iff_of_true h.innerScope?_eq (.inr ⟨htag, hend⟩)
  | tagged h htag hbody =>
    refine iff_of_false (by rw [h.innerScope?_eq]; nofun) ?_
    rintro (halias | ⟨-, hend⟩)
    · exact absurd (h.isAlias_eq.symm.trans halias) nofun
    · exact hbody hend
  | untagged h hname =>
    rw [h.declaredType?_eq] at htype
    cases htype
    refine iff_of_false (by rw [h.innerScope?_eq]; nofun) ?_
    rintro (halias | ⟨htag, -⟩)
    · exact absurd (h.isAlias_eq.symm.trans halias) nofun
    · exact absurd htag (Nat.ne_of_gt hname)
  | aliased h => exact iff_of_true h.innerScope?_eq (.inl h.isAlias_eq)

/-- A struct that has a typedef name stands right behind its keyword, and has a body. -/
theorem Made.of_alias? (h : s.Made d) (hb : (s.symbol d).alias? = some b) :
    ∃ k body type, d = type + 1 ∧
      s.IsDeclared d k .struct
        { declaredType := type, innerScope? := some body, alias? := some b } ∧
      s.IsDeclared b k .struct { declaredType := type, isAlias := true } := by
  cases h with
  | member _ h =>
    rw [h.alias?_eq] at hb
    cases hb
  | forward h =>
    rw [h.alias?_eq] at hb
    cases hb
  | tagged h htag _ halias =>
    rw [h.alias?_eq] at hb
    cases hb
    exact ⟨_, _, _, htag, h, halias b rfl⟩
  | untagged h =>
    rw [h.alias?_eq] at hb
    cases hb
  | aliased h =>
    rw [h.alias?_eq] at hb
    cases hb

/-- A typedef name is that of the symbol right behind its keyword. -/
theorem Made.of_isAlias (h : s.Made d) (hd : (s.symbol d).isAlias = true) :
    ∃ k type, s.IsDeclared d k .struct { declaredType := type, isAlias := true } ∧
      (s.symbol (type + 1)).alias? = some d := by
  cases h with
  | member _ h => exact absurd (h.isAlias_eq.symm.trans hd) nofun
  | forward h => exact absurd (h.isAlias_eq.symm.trans hd) nofun
  | tagged h => exact absurd (h.isAlias_eq.symm.trans hd) nofun
  | untagged h => exact absurd (h.isAlias_eq.symm.trans hd) nofun
  | aliased h htag => exact ⟨_, _, h, htag⟩

/-- In the outermost scope, names are declared as structs. -/
theorem Made.heads (h : s.Made d) (hscope : (s.symbol d).scope? = some 0)
    (hd : (s.symbol d).isAlias = false) : s.Heads 0 d := by
  cases h with
  | member hk h => exact absurd (Option.some.inj (h.scope?.symm.trans hscope)) hk
  | forward h =>
    cases h.scope?.symm.trans hscope
    exact ⟨_, h, rfl⟩
  | tagged h =>
    cases h.scope?.symm.trans hscope
    exact ⟨_, h, rfl⟩
  | untagged h =>
    cases h.scope?.symm.trans hscope
    exact ⟨_, h, rfl⟩
  | aliased h => exact absurd (h.isAlias_eq.symm.trans hd) nofun

end State

end CStruct.Parse

namespace CStruct.TranslationUnit

open SymbolTable Parse Parse.State

variable {t : SymbolTable} {lexemes : List Lexeme} {endPosition : Position} {u : TranslationUnit}

/-! ## The tree of scopes -/

theorem ofLexemes?_ofSource (source : String) :
    ofLexemes? cStructs (Lexicon.lexemes source).1 (Lexicon.lexemes source).2.position =
      some (ofSource source) :=
  (Option.some_get _).symm

/-- A struct that is declared ahead of its body: its name stands right behind the keyword, and right
before a semicolon. -/
def IsForward (u : TranslationUnit) (d : SymbolId) : Prop :=
  ∃ type, (u.symbol d).declaredType? = some type ∧ d = type + 1 ∧ (u.symbol (d + 1)).id = ";"

/-- The scopes form a tree that matches the declarations. The first scope is the only one that lies
in no other, and each other scope lies in one that was opened before. A scope is the body of at most
one symbol, a struct under its own name, and lies in the scope in which that was declared. What a
struct statement declares lacks a body if and only if it is the typedef name of another struct or is
declared ahead of its body. When reading ends, the first scope is open. -/
theorem scopes_form_tree (h : ofLexemes? t lexemes endPosition = some u) :
    (0 < u.scopes.size ∧
      ∀ k < u.scopes.size, (u.scope k).parent? = none ↔ k = rootScope) ∧
    (∀ k parent, (u.scope k).parent? = some parent → parent < k) ∧
    (∀ d e k, (u.symbol d).innerScope? = some k → (u.symbol e).innerScope? = some k → d = e) ∧
    (∀ d k, (u.symbol d).innerScope? = some k →
      k ≠ rootScope ∧ k < u.scopes.size ∧ (u.symbol d).isDeclaration = true ∧
        (u.symbol d).isAlias = false ∧
          ∃ j, (u.symbol d).scope? = some j ∧ (u.scope k).parent? = some j) ∧
    (∀ d type, (u.symbol d).isDeclaration = true → (u.symbol d).declaredType? = some type →
      (u.symbol type).role.std = some .struct →
        ((u.symbol d).innerScope? = none ↔ (u.symbol d).isAlias = true ∨ u.IsForward d)) ∧
    ∃ names s, program t ((State.ofLexemes lexemes endPosition).advance t).fuel
        ((State.ofLexemes lexemes endPosition).advance t) = some (names, s) ∧
      u = ofState names s ∧ s.scope = rootScope ∧ s.outer = [] := by
  obtain ⟨names, s, hs, rfl, -, hc, hscope, houter, -⟩ := brings_ofLexemes h
  obtain ⟨hroot, hparent, hopen, hbody, hunique, -⟩ := hc.nested
  have hpos : 0 < s.scopes.size := Nat.zero_lt_of_lt (hopen s.scope List.mem_cons_self)
  refine ⟨⟨hpos, fun k hk => ?_⟩, fun k parent hk => ?_, hunique, fun d k hd => ?_,
    fun d type hd htype hstd => ?_, names, s, hs, rfl, hscope, houter⟩
  · constructor
    · -- each scope but the first was opened inside another
      intro hnone
      by_contra hne
      obtain ⟨p, -, hp⟩ := hparent k (Nat.pos_of_ne_zero hne) hk
      exact absurd (hnone.symm.trans hp) nofun
    · rintro rfl
      exact hroot
  · change (s.scopeAt k).parent? = some parent at hk
    by_cases hlt : k < s.scopes.size
    · rcases Nat.eq_zero_or_pos k with rfl | hpos
      · exact absurd (hroot.symm.trans hk) nofun
      · obtain ⟨p, hp, heq⟩ := hparent k hpos hlt
        cases heq.symm.trans hk
        exact hp
    · -- there is no such scope
      rw [scopeAt, Array.getD_eq_getD_getElem?, Array.getElem?_eq_none (Nat.le_of_not_lt hlt)] at hk
      cases hk
  · obtain ⟨hpos, hlt, heq⟩ := hbody d k hd
    obtain ⟨hdeclared, halias, j, hj⟩ :=
      (hc.made (not_undeclared_of_innerScope? hd)).of_innerScope? hd
    exact ⟨Nat.ne_of_gt hpos, hlt, hdeclared, halias, j, hj, heq.trans hj⟩
  · have hmade := hc.made (not_undeclared_of_isDeclaration hd)
    rw [show (ofState names s).symbol d = s.symbol d from rfl,
      hmade.innerScope?_eq_none_iff htype hstd]
    apply or_congr_right
    constructor
    · exact fun hforward => ⟨type, htype, hforward⟩
    · rintro ⟨type', htype', hforward⟩
      cases htype.symm.trans htype'
      exact hforward

/-- A struct that is declared ahead of its body. In the body is a struct without a tag, and behind
it a typedef name. -/
def nestedStructs : String := "struct a; struct a \x7b int x; struct \x7b char y; \x7d b; \x7d c;"

theorem scopes_of_nestedStructs :
    ((ofSource nestedStructs).symbol 15).innerScope? = some 2 ∧
    ((ofSource nestedStructs).symbol 15).scope? = some 1 ∧
    ((ofSource nestedStructs).scope 2).parent? = some 1 ∧
    ((ofSource nestedStructs).symbol 1).innerScope? = none ∧
    (ofSource nestedStructs).IsForward 1 := by
  obtain ⟨hbody, hscope, hnone, hdeclared, htype, hstruct, halias⟩ :
      ((ofSource nestedStructs).symbol 15).innerScope? = some 2 ∧
      ((ofSource nestedStructs).symbol 15).scope? = some 1 ∧
      ((ofSource nestedStructs).symbol 1).innerScope? = none ∧
      ((ofSource nestedStructs).symbol 1).isDeclaration = true ∧
      ((ofSource nestedStructs).symbol 1).declaredType? = some 0 ∧
      ((ofSource nestedStructs).symbol 0).role.std = some .struct ∧
      ((ofSource nestedStructs).symbol 1).isAlias = false := by
    decide +kernel
  obtain ⟨-, -, -, htree, hforward, -⟩ := scopes_form_tree (ofLexemes?_ofSource nestedStructs)
  obtain ⟨-, -, -, -, j, hj, hparent⟩ := htree 15 2 hbody
  cases hscope.symm.trans hj
  rcases (hforward 1 0 hdeclared htype hstruct).1 hnone with hname | hahead
  · exact absurd (halias.symm.trans hname) nofun
  · exact ⟨hbody, hscope, hparent, hnone, hahead⟩

/-! ## Typedef names of tagged structs -/

/-- The typedef name of a struct is declared as one with the keyword of the struct and in its scope,
and nothing else is known of it; the struct is no typedef name itself and has a body. -/
theorem alias_spec (h : ofLexemes? t lexemes endPosition = some u) {p b : SymbolId}
    (hb : (u.symbol p).alias? = some b) :
    (u.symbol b).isDeclaration = true ∧ (u.symbol b).isAlias = true ∧
      (u.symbol b).declaredType? = (u.symbol p).declaredType? ∧
      (u.symbol b).scope? = (u.symbol p).scope? ∧
      (u.symbol b).alias? = none ∧ (u.symbol b).innerScope? = none ∧
      (u.symbol b).dimension? = none ∧
      (u.symbol p).isDeclaration = true ∧ (u.symbol p).isAlias = false ∧
      (u.symbol p).innerScope?.isSome = true := by
  obtain ⟨names, s, -, rfl, -, hc, -⟩ := brings_ofLexemes h
  obtain ⟨k, body, type, -, hp, halias⟩ := (hc.made (not_undeclared_of_alias? hb)).of_alias? hb
  refine ⟨halias.isDeclaration, halias.isAlias_eq, ?_, ?_, halias.alias?_eq,
    halias.innerScope?_eq, halias.dimension?_eq, hp.isDeclaration, hp.isAlias_eq, ?_⟩
  · exact halias.declaredType?_eq.trans hp.declaredType?_eq.symm
  · exact halias.scope?.trans hp.scope?.symm
  · rw [show (ofState names s).symbol p = s.symbol p from rfl, hp.innerScope?_eq]
    rfl

/-- Each name that is declared as a typedef name is that of exactly one struct. -/
theorem existsUnique_of_isAlias (h : ofLexemes? t lexemes endPosition = some u) {b : SymbolId}
    (hb : (u.symbol b).isAlias = true) : ∃! p, (u.symbol p).alias? = some b := by
  obtain ⟨names, s, -, rfl, -, hc, -⟩ := brings_ofLexemes h
  obtain ⟨k, type, halias, htag⟩ := (hc.made (not_undeclared_of_isAlias hb)).of_isAlias hb
  refine ⟨type + 1, htag, fun p hp => ?_⟩
  -- a struct stands right behind the keyword that it shares with its typedef name
  obtain ⟨k', body, type', hsucc, -, halias'⟩ := (hc.made (not_undeclared_of_alias? hp)).of_alias? hp
  cases halias.declaration?.symm.trans halias'.declaration?
  exact hsucc

/-- Typedef names and structs are paired one to one. The typedef name of a struct is declared as one
with the keyword of the struct and in its scope, and nothing else is known of it; the struct is no
typedef name itself and has a body. Each name that is declared as a typedef name is that of exactly
one struct. -/
theorem aliases_paired (h : ofLexemes? t lexemes endPosition = some u) :
    (∀ p b, (u.symbol p).alias? = some b →
      (u.symbol b).isDeclaration = true ∧ (u.symbol b).isAlias = true ∧
      (u.symbol b).declaredType? = (u.symbol p).declaredType? ∧
      (u.symbol b).scope? = (u.symbol p).scope? ∧
      (u.symbol b).alias? = none ∧ (u.symbol b).innerScope? = none ∧
      (u.symbol b).dimension? = none ∧
      (u.symbol p).isDeclaration = true ∧ (u.symbol p).isAlias = false ∧
      (u.symbol p).innerScope?.isSome = true) ∧
    ∀ b, (u.symbol b).isDeclaration = true → (u.symbol b).isAlias = true →
      ∃! p, (u.symbol p).alias? = some b :=
  ⟨fun _ _ hb => alias_spec h hb, fun _ _ hb => existsUnique_of_isAlias h hb⟩

theorem alias_of_nestedStructs :
    ((ofSource nestedStructs).symbol 4).alias? = some 18 ∧
    ((ofSource nestedStructs).symbol 18).isAlias = true ∧
    ((ofSource nestedStructs).symbol 18).declaredType? =
      ((ofSource nestedStructs).symbol 4).declaredType? ∧
    ∀ p, ((ofSource nestedStructs).symbol p).alias? = some 18 → p = 4 := by
  have halias : ((ofSource nestedStructs).symbol 4).alias? = some 18 := by decide +kernel
  obtain ⟨hpaired, hunique⟩ := aliases_paired (ofLexemes?_ofSource nestedStructs)
  obtain ⟨hdeclared, hname, htype, -⟩ := hpaired 4 18 halias
  exact ⟨halias, hname, htype, fun p hp => (hunique 18 hdeclared hname).unique hp halias⟩

end CStruct.TranslationUnit
