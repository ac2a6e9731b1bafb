import CStruct.Proofs.Parse.Naming

/-!
# Reading the parts of a declaration

What the readers do in a state that reads the lexemes `w`: blocks, operands and the keyword of a
statement. Both directions of the correspondence with the grammar rest on these.
-/

namespace CStruct.Parse

open SymbolTable

namespace State

variable {s s' : State} {l : Lexeme} {w : List Lexeme}

/-! ## Blocks -/

theorem Reads.openScope (h : s.Reads w) : s.openScope.Reads w := by
  have hleads := h.sound.openScope
  have hknows : ∀ id l, s.Knows id l → s.openScope.Knows id l := fun id l hl =>
    hl.of_symbol_eq (hleads.plain id hl.plain) rfl
  refine ⟨hleads.sound, ?_, h.pending, h.ended, h.current, h.ordinary⟩
  intro k name id hk
  have hget : (s.openScope.scopeAt k).get? name = (s.scopeAt k).get? name := by
    rw [scopeAt, scopeAt, State.openScope, Array.getD_eq_getD_getElem?,
      Array.getD_eq_getD_getElem?, Array.getElem?_push]
    by_cases hsize : k = s.scopes.size
    · rw [if_pos hsize, hsize, Array.getElem?_eq_none (Nat.le_refl _)]
      rfl
    · rw [if_neg hsize]
  obtain ⟨l, hl, htext, hs⟩ := h.meaningful k name id (hget ▸ hk)
  exact ⟨l, hl, htext, hknows id l hs⟩

/-- Closing a scope leads back to the one that it was opened in. -/
theorem passes_block (h : s.openScope.Passes s' w) : s.Passes s'.closeScope w := by
  have hclose : s'.closeScope = { s' with scope := s.scope, outer := s.outer } := by
    rw [State.closeScope, h.keeps.outer]
    rfl
  have hopen : ∀ id l, s.Knows id l → s.openScope.Knows id l := fun id l hl =>
    hl.of_symbol_eq ⟨hl.plain.lt, hl.plain.ne⟩ rfl
  have hknows : ∀ id l, s'.Knows id l → s'.closeScope.Knows id l := by
    rw [hclose]
    exact fun id l hl => hl.of_symbol_eq ⟨hl.plain.lt, hl.plain.ne⟩ rfl
  have hmeaningful : s'.closeScope.Meaningful :=
    h.reads.meaningful.of_knows (by rw [hclose]) hknows
  refine ⟨?_, fun id l hl => hknows id l (h.keeps.knows id l (hopen id l hl)), ?_, ?_, ?_⟩
  · rw [hclose] at hmeaningful ⊢
    exact ⟨⟨h.reads.sound.token_lt, h.reads.sound.atEnd⟩, hmeaningful, h.reads.pending,
      h.reads.ended, h.reads.current, h.reads.ordinary⟩
  · rw [hclose]
  · rw [hclose]
  · rw [hclose]
    exact h.keeps.hasErrors

/-! ## Keywords of statements -/

theorem Reads.enterStatement (h : s.Reads (l :: w)) (hl : l.IsWord) :
    s.Passes (s.enterStatement cStructs) w := by
  have he := h.ended.2 (List.cons_ne_nil l w)
  have h₁ := h.advance
  have hknows := h₁.keeps.knows _ l h.knows_token
  have h₂ := h₁.trans (h₁.reads.reserve hknows hl)
  have hknows₂ := h₂.keeps.knows _ l h.knows_token
  have htoken : ((s.advance cStructs).reserve s.token).token = s.symbols.size := by
    rw [token_reserve, token_advance he]
  -- the keyword is not the token any more, so its kind may change
  exact h₂.trans (h₂.reads.modifySymbol (f := ({ · with kind := .statement })) hknows₂.plain
    rfl rfl rfl rfl fun heq => absurd (heq.trans htoken) (Nat.ne_of_lt h.sound.token_lt))

/-! ## Expressions -/

/-- What the lexeme ahead, or the end, can do. -/
def headRole : List Lexeme → Role
  | [] => {}
  | l :: _ => l.prototype.role

theorem Reads.role (h : s.Reads w) : s.current.role = headRole w := by
  cases w with
  | nil => exact h.current.2.1
  | cons l w => exact h.current.1.role

theorem headRole_cases (h : Ordinary w) :
    (headRole w).bindingPower = 0 ∧ (headRole w).nud ≠ some .prefixed := by
  cases w with
  | nil => exact ⟨rfl, nofun⟩
  | cons l w =>
    rw [headRole]
    rcases (h.each l List.mem_cons_self).cases with
      hl | ⟨hl, hget⟩ | ⟨hl, p, hp⟩ | hl | ⟨id', hid', hl⟩
    · rw [Lexeme.prototype_struct hl]
      exact ⟨rfl, nofun⟩
    · rw [Lexeme.prototype_ident hl hget]
      exact ⟨rfl, nofun⟩
    · rw [Lexeme.prototype_type hl hp]
      exact ⟨rfl, nofun⟩
    · rw [Lexeme.prototype_number hl]
      exact ⟨rfl, nofun⟩
    · rw [Lexeme.prototype_operator hl hid']
      exact ⟨rfl, nofun⟩

end State

open State

/-- No operator of a declaration goes on with an expression. -/
theorem operators_eq_self {fuel : Nat} {left : SymbolId} {s : State}
    (hpower : s.current.role.bindingPower = 0) : operators cStructs fuel 0 left s = some (left, s) := by
  rw [operators.eq_def, hpower, if_neg (Nat.lt_irrefl 0)]

section Expression

variable {s s' : State} {l : Lexeme} {w : List Lexeme} {fuel : Nat} {top : SymbolId}

/-- An operand is an expression by itself. -/
theorem expression_of_operand (h : s.Reads (l :: w)) (hnud : l.prototype.role.nud = some .itself)
    (hs : expression cStructs fuel 0 s = some (top, s')) :
    top = s.token ∧ s' = s.advance cStructs := by
  have h₁ := h.advance
  have hsymbol := (h₁.keeps.knows _ l h.knows_token).spells.role
  cases fuel with
  | zero =>
    rw [expression] at hs
    cases hs
  | succ fuel =>
    have hnull : nullDenotation (expression cStructs fuel) s.token (s.advance cStructs) =
        some (s.advance cStructs) := by
      unfold nullDenotation
      rw [hsymbol, hnud]
    rw [expression, hnull] at hs
    dsimp only at hs
    rw [operators_eq_self (by rw [h₁.reads.role]; exact (headRole_cases h₁.reads.ordinary).1)] at hs
    cases hs
    exact ⟨rfl, rfl⟩

/-- What cannot be an operand is reported. -/
theorem hasErrors_expression (h : s.Reads w) (hnud : (headRole w).nud = none)
    (hs : expression cStructs fuel 0 s = some (top, s')) : s'.hasErrors = true := by
  have hsymbol : ((s.advance cStructs).symbol s.token).role = headRole w := by
    cases w with
    | nil =>
      have hend : s.endSymbol? ≠ none := fun he => h.ended.1 he rfl
      obtain ⟨e, he⟩ := Option.ne_none_iff_exists'.1 hend
      rw [h.sound.advance_of_end he]
      exact h.current.2.1
    | cons l w => exact (h.advance.keeps.knows _ l h.knows_token).spells.role
  cases fuel with
  | zero =>
    rw [expression] at hs
    cases hs
  | succ fuel =>
    have hnull : nullDenotation (expression cStructs fuel) s.token (s.advance cStructs) =
        some ((s.advance cStructs).report s.token .undefined) := by
      unfold nullDenotation
      rw [hsymbol, hnud]
    rw [expression, hnull] at hs
    cases hclean : s'.hasErrors with
    | true => rfl
    | false =>
      have hgrows := (grows_expression_operators cStructs fuel).2 _ _ _ _ _ hs
      have hreport := hasErrors_report (s.advance cStructs) s.token
        (show Problem.undefined.severity = .error from rfl)
      rw [hgrows.hasErrors_eq_false hclean] at hreport
      cases hreport

end Expression

/-! ## Structs -/

-- The part of a struct declaration that begins with its opening brace.
def structBody (t : SymbolTable) (readBody : State → Option State) (keyword : SymbolId)
    (tag? : Option SymbolId) (s : State) : Option (Option SymbolId × State) :=
  (readBody (s.expect t openBrace).openScope).map
    (structEnd t keyword tag? (s.expect t openBrace).openScope.scope)

theorem State.Reads.forwardDeclaration (keyword : SymbolId) {tag : SymbolId} {s : State}
    {w : List Lexeme} {n : Lexeme} (h : s.Reads w) (htag : s.Knows tag n) (hn : n.IsIdent)
    (hget : cStructs.get? n.text = none) (hne : tag ≠ s.token) :
    s.Passes (forwardDeclaration keyword (some tag) s).2 w := by
  unfold Parse.forwardDeclaration
  dsimp only
  split
  · exact h.passes
  · exact h.define htag hn hget (fun heq => absurd heq hne) keyword

theorem structDeclaration_of_name {t : SymbolTable} {readBody : State → Option State}
    {keyword : SymbolId} {s : State} (hkind : s.current.kind = .name) :
    structDeclaration t readBody keyword s =
      if (s.advance t).check ";" then
        some (forwardDeclaration keyword (some s.token) ((s.advance t).advance t))
      else structBody t readBody keyword (some s.token) ((s.advance t).define s.token keyword) := by
  rw [structDeclaration, if_pos hkind]
  rfl

theorem structDeclaration_of_not_name {t : SymbolTable} {readBody : State → Option State}
    {keyword : SymbolId} {s : State} (hkind : ¬s.current.kind = .name) :
    structDeclaration t readBody keyword s =
      if s.check ";" then some (forwardDeclaration keyword none (s.advance t))
      else structBody t readBody keyword none s := by
  rw [structDeclaration, if_neg hkind]
  rfl

/-! ## What the lexemes ahead decide -/

section Readers

variable {readBody : State → Option State} {name? : Option SymbolId} {s s' : State}
  {keyword : SymbolId} {w : List Lexeme}

theorem State.Reads.kind_of_name {n : Lexeme} (h : s.Reads (n :: w)) (hn : n.kind = .name) :
    s.current.kind = .name :=
  h.name_iff.2 ⟨n, rfl, hn⟩

theorem State.Reads.passes_define {n : Lexeme} (h : s.Reads (n :: w)) (hn : n.IsIdent)
    (keyword : SymbolId) : s.Passes (s.define s.token keyword) (n :: w) :=
  h.define h.knows_token hn ((h.ordinary.each n List.mem_cons_self).get?_of_ident hn)
    (fun _ => h.kind_of_name hn.1) keyword

theorem State.Reads.not_name_of_operator {o : Lexeme} (h : s.Reads (o :: w)) (ho : o.kind = .operator) :
    ¬s.current.kind = .name := by
  rw [h.name_iff]
  rintro ⟨l, ⟨⟩, hl⟩
  cases ho.symm.trans hl

theorem State.Reads.not_semicolon_of_brace {o : Lexeme} (h : s.Reads (o :: w))
    (ho : o.IsOperator openBrace) : ¬s.check ";" = true := by
  rw [h.check_iff (by decide)]
  rintro ⟨l, ⟨⟩, hop⟩
  exact absurd (ho.2.symm.trans hop.2) (by decide)

theorem dimension_of_number {d c : Lexeme} {id : SymbolId} (h : s.Reads (d :: c :: w))
    (hd : d.kind = .number) (hs : dimension cStructs id s = some s') :
    s' = ((s.advance cStructs).expect cStructs "]").modifyDeclaration id
      ({ · with dimension? := some s.token }) := by
  obtain ⟨⟨top, s₁⟩, hexpression, hs'⟩ := Option.map_eq_some_iff.1 hs
  have hnud : d.prototype.role.nud = some .itself := by rw [Lexeme.prototype_number hd]; rfl
  obtain ⟨rfl, rfl⟩ := expression_of_operand h hnud hexpression
  have hkind : ((s.advance cStructs).symbol s.token).kind = .literal := by
    rw [(h.passed h.sound.token_lt).2]
    exact h.current.2.trans (by rw [hd]; rfl)
  dsimp only at hs'
  rw [if_pos hkind] at hs'
  exact hs'.symm

theorem declarator_of_scalar {n : Lexeme} (h : s.Reads (n :: w)) (hn : n.IsIdent)
    (hw : ∀ l ∈ w.head?, ¬l.IsOperator "[") :
    declarator cStructs keyword s = some ((s.define s.token keyword).advance cStructs) := by
  have h₁ := (h.passes_define hn keyword).reads.advance
  have hcheck : ((s.define s.token keyword).advance cStructs).check "[" = false := by
    rw [Bool.eq_false_iff, ne_eq, h₁.reads.check_iff (by decide)]
    rintro ⟨l, hl, hop⟩
    exact hw l hl hop
  rw [declarator, if_pos (h.kind_of_name hn.1)]
  dsimp only
  rw [hcheck]
  rfl

theorem declarator_of_array {n o : Lexeme} (h : s.Reads (n :: o :: w)) (hn : n.IsIdent)
    (ho : o.IsOperator "[") :
    declarator cStructs keyword s = dimension cStructs s.token
      (((s.define s.token keyword).advance cStructs).advance cStructs) := by
  have h₁ := (h.passes_define hn keyword).reads.advance
  have hcheck : ((s.define s.token keyword).advance cStructs).check "[" = true :=
    (h₁.reads.check_iff (by decide)).2 ⟨o, rfl, ho⟩
  rw [declarator, if_pos (h.kind_of_name hn.1)]
  dsimp only
  rw [if_pos hcheck]

theorem members_of_semicolon {e : Lexeme} (h : s.Reads (e :: w)) (he : e.IsOperator ";") :
    (if s.atClose then s.reportExpected ";" else s.expect cStructs ";") =
      s.expect cStructs ";" := by
  have hclose : s.atClose = false := by
    rw [Bool.eq_false_iff, ne_eq, h.atClose_iff]
    rintro (hnil | ⟨l, ⟨⟩, hop⟩)
    · cases hnil
    · exact absurd (hop.2.symm.trans he.2) (by decide)
  rw [hclose, if_neg Bool.false_ne_true]

theorem statement_of_operand {n : Lexeme} (h : s.Reads (n :: w)) (hn : n.IsIdent ∨ n.kind = .number)
    (hs : statement cStructs readBody s = some (name?, s')) : s' = s.advance cStructs := by
  have hrole : n.prototype.role = .ofDeclared := by
    rcases hn with hn | hn
    · rw [Lexeme.prototype_ident hn ((h.ordinary.each n List.mem_cons_self).get?_of_ident hn)]
    · rw [Lexeme.prototype_number hn]
  have hstd : s.current.role.std = none := by
    rw [h.role, headRole, hrole]
    rfl
  rw [statement, hstd] at hs
  obtain ⟨s₁, hs₁, heq⟩ := Option.map_eq_some_iff.1 hs
  cases heq
  obtain ⟨⟨top, s₁⟩, hexpression, hs'⟩ := Option.map_eq_some_iff.1 hs₁
  obtain ⟨rfl, rfl⟩ := expression_of_operand h (by rw [hrole]; rfl) hexpression
  have htop : ((s.advance cStructs).symbol s.token).isExpression = true := by
    have hkind : (s.symbol s.token).kind = kindOf n.kind := h.current.2
    rw [(h.passed h.sound.token_lt).2, Symbol.isExpression, hkind]
    rcases hn with hn | hn
    · rw [hn.1]
      rfl
    · rw [hn]
      rfl
  dsimp only at hs'
  rw [if_pos htop] at hs'
  exact hs'.symm

theorem statement_of_struct {k : Lexeme} (h : s.Reads (k :: w)) (hk : k.IsStructKeyword) :
    statement cStructs readBody s =
      structDeclaration cStructs readBody s.token (s.enterStatement cStructs) := by
  have hstd : s.current.role.std = some .struct := by
    rw [h.role]
    show k.prototype.role.std = _
    rw [Lexeme.prototype_struct hk]
  rw [statement, hstd]

theorem statement_of_type {t : Lexeme} (h : s.Reads (t :: w)) (ht : t.kind = .type) :
    statement cStructs readBody s =
      (members cStructs s.token (s.enterStatement cStructs)).map fun s => (none, s) := by
  have hord := h.ordinary.each t List.mem_cons_self
  have hstd : s.current.role.std = some .member := by
    rw [Lexeme.Ordinary, ht] at hord
    obtain ⟨p, hp⟩ := hord
    rw [h.role, headRole, Lexeme.prototype_type ht hp]
  rw [statement, hstd]

theorem statements_of_close {fuel : Nat} {names : List SymbolId} (hclose : s.atClose = true)
    (hs : statements cStructs fuel s = some (names, s')) : s' = s := by
  rcases statements_cases hs with ⟨-, -, heq⟩ | ⟨hopen, -⟩
  · exact heq
  · cases hclose.symm.trans hopen

theorem statements_of_not_close {fuel : Nat} {names : List SymbolId} (hclose : ¬s.atClose = true)
    (hs : statements cStructs fuel s = some (names, s')) :
    ∃ rest name? s₁ others, statement cStructs (bodyReader cStructs rest) s = some (name?, s₁) ∧
      statements cStructs rest s₁ = some (others, s') := by
  rcases statements_cases hs with ⟨hclosed, -⟩ | ⟨-, rest, name?, s₁, others, -, -, hs₁, hs₂⟩
  · exact absurd hclosed hclose
  · exact ⟨rest, name?, s₁, others, hs₁, hs₂⟩

end Readers

end CStruct.Parse
