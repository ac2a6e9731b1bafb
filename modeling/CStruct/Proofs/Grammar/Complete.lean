import CStruct.Proofs.Grammar.Steps

/-!
# What the grammar derives is read without errors

A reader that meets a word of its nonterminal, with a lexeme behind it that cannot go on with the
word, passes the word and reports no error. The induction is on the fuel of the readers; the
derivation of the word says which branch each of them takes.
-/

namespace CStruct.Parse

open SymbolTable State Grammar

variable {s s' : State} {keyword : SymbolId} {v w : List Lexeme}

/-! ## Members -/

theorem passes_dimension {d c name : Lexeme} {id : SymbolId} (h : s.Reads (d :: c :: w))
    (hd : d.kind = .number) (hc : c.IsOperator "]") (hname : s.Knows id name)
    (hs : dimension cStructs id s = some s') : s.Passes s' w := by
  have h₁ := h.advance
  have h₂ := h₁.trans (h₁.reads.expect (by decide) hc)
  rw [dimension_of_number h hd hs]
  exact h₂.trans (h₂.reads.modifyDeclaration (h₂.keeps.knows id name hname).plain _)

theorem passes_declarator (hv : Derives .declarator v) (h : s.Reads (v ++ w))
    (hw : ∀ l ∈ w.head?, ¬l.IsOperator "[") (hs : declarator cStructs keyword s = some s') :
    s.Passes s' w := by
  cases hv with
  | scalar hn =>
    rw [declarator_of_scalar h hn hw] at hs
    cases hs
    have h₁ := h.passes_define hn keyword
    exact h₁.trans h₁.reads.advance
  | @array n o d c hn ho hd hc =>
    rw [declarator_of_array h hn ho] at hs
    have h₁ := h.passes_define hn keyword
    have h₂ := h₁.trans h₁.reads.advance
    have h₃ := h₂.trans h₂.reads.advance
    have hname := h₃.keeps.knows s.token _ h.knows_token
    exact h₃.trans (passes_dimension h₃.reads hd hc hname hs)

/-- Declarators are passed one by one. The derivation and the reader go down together; the induction is
on the fuel. -/
theorem passes_declarators {fuel : Nat} (hv : Derives .declarators v) (h : s.Reads (v ++ w))
    (hw : ∀ l ∈ w.head?, ¬l.IsOperator "[" ∧ ¬l.IsOperator ",")
    (hs : declarators cStructs keyword fuel s = some s') : s.Passes s' w := by
  induction fuel using Nat.strongRecOn generalizing s v with
  | ind fuel ih =>
    obtain ⟨s₁, hs₁, hcases⟩ := declarators_cases hs
    cases hv with
    | last hd =>
      have h₁ := passes_declarator hd h (fun l hl => (hw l hl).1) hs₁
      rcases hcases with ⟨-, rfl⟩ | ⟨hcheck, -⟩
      · exact h₁
      · obtain ⟨l, hl, hop⟩ := (h₁.reads.check_iff (by decide)).1 hcheck
        exact absurd hop (hw l hl).2
    | @more v₁ v₂ c hd hc hv =>
      rw [List.append_assoc, List.cons_append] at h
      have hnext : ∀ l ∈ (c :: (v₂ ++ w)).head?, ¬l.IsOperator "[" := by
        rintro l ⟨⟩ hop
        exact absurd (hc.2.symm.trans hop.2) (by decide)
      have h₁ := passes_declarator hd h hnext hs₁
      have hcheck : s₁.check "," = true := (h₁.reads.check_iff (by decide)).2 ⟨c, rfl, hc⟩
      rcases hcases with ⟨hother, -⟩ | ⟨-, rest, rfl, hs₂⟩
      · cases hcheck.symm.trans hother
      · have h₂ := h₁.trans h₁.reads.advance
        exact h₂.trans (ih rest (Nat.lt_succ_self rest) hv h₂.reads hs₂)

/-- The members after a type keyword, inside a struct. -/
theorem passes_members {e : Lexeme} (hv : Derives .declarators v) (he : e.IsOperator ";")
    (h : s.Reads (v ++ e :: w)) (hinside : s.isGlobal = false)
    (hs : members cStructs keyword s = some s') : s.Passes s' w := by
  have hnot (id : String) (hid : id ≠ ";") : ∀ l ∈ (e :: w).head?, ¬l.IsOperator id := by
    rintro l ⟨⟩ hop
    exact hid (hop.2.symm.trans he.2)
  rw [members, hinside, if_neg Bool.false_ne_true] at hs
  obtain ⟨s₁, hs₁, hs'⟩ := Option.map_eq_some_iff.1 hs
  have h₁ := passes_declarators hv h
    (fun l hl => ⟨hnot "[" (by decide) l hl, hnot "," (by decide) l hl⟩) hs₁
  rw [members_of_semicolon h₁.reads he] at hs'
  rw [← hs']
  exact h₁.trans (h₁.reads.expect (by decide) he)

/-! ## Structs -/

/-- The typedef name of a struct, if there is one, before the semicolon. -/
theorem passes_typedefName (keyword : SymbolId) {tag? : Option SymbolId} (body : ScopeId)
    {tag : Lexeme} {name? : Option Lexeme} {e : Lexeme} (h : s.Reads (name?.toList ++ e :: w))
    (htag : ∀ id, tag? = some id → s.Knows id tag) (hname : ∀ n ∈ name?, n.IsIdent)
    (he : e.IsOperator ";") :
    s.Passes (typedefName cStructs keyword tag? body s).2 (e :: w) ∧
      (typedefName cStructs keyword tag? body s).1.isSome = (tag?.isSome || name?.isSome) := by
  unfold typedefName
  cases name? with
  | none =>
    rw [if_neg (h.not_name_of_operator he.1)]
    exact ⟨h.passes, (Bool.or_false _).symm⟩
  | some n =>
    have hn := hname n rfl
    have hkind : s.current.kind = .name := h.name_iff.2 ⟨n, rfl, hn.1⟩
    have hget := (h.ordinary.each n List.mem_cons_self).get?_of_ident hn
    rw [if_pos hkind]
    cases tag? with
    | some tag =>
      have h₁ := h.defineAlias h.knows_token hn hget (fun _ => hkind) (htag tag rfl) keyword
      exact ⟨h₁.trans h₁.reads.advance, rfl⟩
    | none =>
      have h₁ := h.define h.knows_token hn hget (fun _ => hkind) keyword
      have h₂ := h₁.trans (h₁.reads.modifyDeclaration
        (h₁.keeps.knows _ _ h.knows_token).plain ({ · with innerScope? := some body }))
      exact ⟨h₂.trans h₂.reads.advance, rfl⟩

theorem passes_structEnd {s₀ : State} (keyword : SymbolId) {tag? : Option SymbolId}
    (body : ScopeId) {tag c e : Lexeme} {name? : Option Lexeme}
    (h : s₀.openScope.Passes s (c :: (name?.toList ++ e :: w)))
    (htag : ∀ id, tag? = some id → s₀.Knows id tag) (hc : c.IsOperator closeBrace)
    (hname : ∀ n ∈ name?, n.IsIdent) (hnamed : (tag?.isSome || name?.isSome) = true)
    (he : e.IsOperator ";") : s₀.Passes (structEnd cStructs keyword tag? body s).2 w := by
  have h₁ := passes_block h
  have h₂ := h₁.trans (h₁.reads.expect (by decide) hc)
  unfold structEnd
  dsimp only
  generalize s.closeScope.expect cStructs closeBrace = s₂ at h₂ ⊢
  have h₃ : s₀.Passes (tag?.elim s₂ fun tag => s₂.setBody tag body) (name?.toList ++ e :: w) := by
    cases tag? with
    | none => exact h₂
    | some id =>
      exact h₂.trans (h₂.reads.modifyDeclaration (h₂.keeps.knows id tag (htag id rfl)).plain
        ({ · with innerScope? := some body }))
  generalize (tag?.elim s₂ fun tag => s₂.setBody tag body) = s₃ at h₃ ⊢
  obtain ⟨h₄, hsome⟩ := passes_typedefName keyword body h₃.reads
    (fun id hid => h₃.keeps.knows id tag (htag id hid)) hname he
  generalize typedefName cStructs keyword tag? body s₃ = named at h₄ hsome ⊢
  obtain ⟨goesBy?, s₄⟩ := named
  have hnone : goesBy?.isNone = false := by
    rw [← Option.not_isSome, show goesBy?.isSome = true from hsome.trans hnamed]
    rfl
  rw [hnone]
  have h₅ := h₃.trans h₄
  exact h₅.trans (h₅.reads.expect (by decide) he)

/-- A reader of bodies that passes what the grammar derives inside a struct. -/
def PassesBodies (readBody : State → Option State) : Prop :=
  ∀ {s s' : State} {v w : List Lexeme}, Derives (.statements true) v → s.Reads (v ++ w) →
    (∀ l ∈ w.head?, l.IsOperator closeBrace) → s.isGlobal = false → readBody s = some s' →
    s.Passes s' w

theorem passes_structBody {readBody : State → Option State} (hbody : PassesBodies readBody)
    {tag? goesBy? : Option SymbolId} (tag : Lexeme) {o c e : Lexeme} {name? : Option Lexeme}
    (h : s.Reads (o :: (v ++ c :: (name?.toList ++ e :: w))))
    (htag : ∀ id, tag? = some id → s.Knows id tag) (ho : o.IsOperator openBrace)
    (hv : Derives (.statements true) v) (hc : c.IsOperator closeBrace)
    (hname : ∀ n ∈ name?, n.IsIdent) (hnamed : (tag?.isSome || name?.isSome) = true)
    (he : e.IsOperator ";")
    (hs : structBody cStructs readBody keyword tag? s = some (goesBy?, s')) : s.Passes s' w := by
  obtain ⟨s₂, hs₂, hs'⟩ := Option.map_eq_some_iff.1 hs
  have h₁ := h.expect (by decide) ho
  have hclose : ∀ l ∈ (c :: (name?.toList ++ e :: w)).head?, l.IsOperator closeBrace := by
    rintro l ⟨⟩
    exact hc
  have h₂ := hbody hv h₁.reads.openScope hclose rfl hs₂
  have h₃ := passes_structEnd keyword (s.expect cStructs openBrace).openScope.scope h₂
    (fun id hid => h₁.keeps.knows id tag (htag id hid)) hc hname hnamed he
  rw [hs'] at h₃
  exact h₁.trans h₃

/-- What stands behind the keyword of a struct. -/
theorem passes_structDeclaration {readBody : State → Option State} (hbody : PassesBodies readBody)
    {k : Lexeme} (hv : Derives .struct (k :: v)) (h : s.Reads (v ++ w)) {goesBy? : Option SymbolId}
    (hs : structDeclaration cStructs readBody keyword s = some (goesBy?, s')) : s.Passes s' w := by
  have htagged {n : Lexeme} {w : List Lexeme} (h : s.Reads (n :: w)) (hn : n.IsIdent) :
      s.current.kind = .name ∧ cStructs.get? n.text = none :=
    ⟨h.name_iff.2 ⟨n, rfl, hn.1⟩, (h.ordinary.each n List.mem_cons_self).get?_of_ident hn⟩
  -- the derivation is one of `k :: v`, and `cases` needs a variable there
  generalize hv' : k :: v = kv at hv
  cases hv with
  | @forward k' n e hk hn he =>
    cases hv'
    obtain ⟨hkind, hget⟩ := htagged h hn
    have h₁ := h.advance
    have hcheck : (s.advance cStructs).check ";" = true :=
      (h₁.reads.check_iff (by decide)).2 ⟨e, rfl, he⟩
    rw [structDeclaration_of_name hkind, if_pos hcheck] at hs
    have h₂ := h₁.trans h₁.reads.advance
    have htag := h₁.keeps.knows _ n h.knows_token
    have h₃ := h₂.reads.forwardDeclaration keyword
      (h₂.keeps.knows _ n h.knows_token) hn hget (h₁.reads.passed htag.plain.lt).1
    rw [Option.some.inj hs] at h₃
    exact h₂.trans h₃
  | @struct k' o c e tag? name? body hk htag ho hw hc hname hnamed he =>
    simp only [List.cons_append, List.append_assoc] at hv'
    obtain ⟨rfl, rfl⟩ := List.cons.inj hv'
    simp only [List.cons_append, List.append_assoc, List.nil_append] at h
    rw [← Bool.or_eq_true] at hnamed
    cases tag? with
    | none =>
      rw [structDeclaration_of_not_name (h.not_name_of_operator ho.1),
        if_neg (h.not_semicolon_of_brace ho)] at hs
      exact passes_structBody hbody o h (by intro id hid; cases hid) ho hw hc hname hnamed he hs
    | some n =>
      have hn := htag n rfl
      obtain ⟨hkind, hget⟩ := htagged h hn
      have h₁ := h.advance
      rw [structDeclaration_of_name hkind, if_neg (h₁.reads.not_semicolon_of_brace ho)] at hs
      have h₂ := h₁.trans (h₁.reads.define (h₁.keeps.knows _ n h.knows_token) hn hget
        (fun heq => absurd heq (h.passed h.sound.token_lt).1) keyword)
      have h₃ := passes_structBody hbody n h₂.reads
        (fun id hid => Option.some.inj hid ▸ h₂.keeps.knows _ n h.knows_token)
        ho hw hc hname hnamed he hs
      exact h₂.trans h₃

/-! ## Statements -/

theorem passes_operand {readBody : State → Option State} {n : Lexeme}
    (hn : n.IsIdent ∨ n.kind = .number) (h : s.Reads (n :: w)) {name? : Option SymbolId}
    (hs : statement cStructs readBody s = some (name?, s')) : s.Passes s' w := by
  rw [statement_of_operand h hn hs]
  exact h.advance

theorem passes_struct {readBody : State → Option State} (hbody : PassesBodies readBody)
    (hv : Derives .struct v) (h : s.Reads (v ++ w)) {name? : Option SymbolId}
    (hs : statement cStructs readBody s = some (name?, s')) : s.Passes s' w := by
  obtain ⟨k, v, rfl, hk⟩ : ∃ k v', v = k :: v' ∧ k.IsStructKeyword := by
    cases hv with
    | forward hk => exact ⟨_, _, rfl, hk⟩
    | struct hk => exact ⟨_, _, rfl, hk⟩
  rw [statement_of_struct h hk] at hs
  have h₁ := Reads.enterStatement (l := k) h (.inl hk.1)
  exact h₁.trans (passes_structDeclaration hbody hv h₁.reads hs)

theorem passes_membersStatement {readBody : State → Option State} (hv : Derives .members v)
    (h : s.Reads (v ++ w)) (hinside : s.isGlobal = false) {name? : Option SymbolId}
    (hs : statement cStructs readBody s = some (name?, s')) : s.Passes s' w := by
  cases hv with
  | @members t e v ht hv he =>
    simp only [List.cons_append, List.append_assoc, List.nil_append] at h
    rw [statement_of_type h ht] at hs
    obtain ⟨s₁, hs₁, heq⟩ := Option.map_eq_some_iff.1 hs
    cases heq
    have h₁ := h.enterStatement (.inr ht)
    have hglobal : (s.enterStatement cStructs).isGlobal = false := by
      rw [State.isGlobal, h₁.keeps.outer]
      exact hinside
    exact h₁.trans (passes_members hv he h₁.reads hglobal hs₁)

theorem not_close_of_derives {inside : Bool} {l : Lexeme}
    (hv : Derives (.statements inside) (l :: v)) : ¬l.IsOperator closeBrace := by
  intro hop
  generalize hw : l :: v = w at hv
  cases hv with
  | nil => cases hw
  | operand hn =>
    cases hw
    rcases hn with hn | hn
    · cases hop.1.symm.trans hn.1
    · cases hop.1.symm.trans hn
  | consStruct hv =>
    cases hv with
    | forward hk =>
      cases hw
      cases hop.1.symm.trans hk.1
    | struct hk =>
      cases hw
      cases hop.1.symm.trans hk.1
  | consMembers hv =>
    cases hv with
    | members ht =>
      cases hw
      cases hop.1.symm.trans ht

theorem passes_statements {fuel : Nat} {inside : Bool} (hv : Derives (.statements inside) v)
    (h : s.Reads (v ++ w)) (hw : ∀ l ∈ w.head?, l.IsOperator closeBrace)
    (hinside : s.isGlobal = !inside) {names : List SymbolId}
    (hs : statements cStructs fuel s = some (names, s')) : s.Passes s' w := by
  induction fuel using Nat.strongRecOn generalizing s s' v w inside names with
  | ind fuel ih =>
    rcases statements_cases hs with
      ⟨hclose, -, rfl⟩ | ⟨hopen, rest, name?, s₁, others, rfl, -, hs₁, hs₂⟩
    · cases v with
      | nil => exact h.passes
      | cons l v =>
        rcases h.atClose_iff.1 hclose with hnil | ⟨_, ⟨⟩, hop⟩
        · cases hnil
        · exact absurd hop (not_close_of_derives hv)
    · have hlt := Nat.lt_succ_self rest
      have hbody : PassesBodies (bodyReader cStructs rest) := by
        intro s s' v w hv h hw hinside hs
        obtain ⟨names, hs⟩ := bodyReader_cases hs
        exact ih rest hlt hv h hw hinside hs
      -- the statements behind the first one
      have hrest {s₁ s₂ : State} {w₁ : List Lexeme} {others : List SymbolId}
          (h₁ : s.Passes s₁ (w₁ ++ w)) (hv : Derives (.statements inside) w₁)
          (hs : statements cStructs rest s₁ = some (others, s₂)) : s.Passes s₂ w := by
        apply h₁.trans
        apply ih rest hlt hv h₁.reads hw _ hs
        rw [State.isGlobal, h₁.keeps.outer]
        exact hinside
      cases hv with
      | nil =>
        refine absurd (h.atClose_iff.2 ?_) (Bool.eq_false_iff.1 hopen)
        cases w with
        | nil => exact .inl rfl
        | cons l w => exact .inr ⟨l, rfl, hw l rfl⟩
      | operand hn hv => exact hrest (passes_operand hn h hs₁) hv hs₂
      | consStruct hv₁ hv =>
        rw [List.append_assoc] at h
        exact hrest (passes_struct hbody hv₁ h hs₁) hv hs₂
      | consMembers hv₁ hv =>
        rw [List.append_assoc] at h
        exact hrest (passes_membersStatement hv₁ h hinside hs₁) hv hs₂

theorem passes_bodyReader (fuel : Nat) : PassesBodies (bodyReader cStructs fuel) := by
  intro s s' v w hv h hw hinside hs
  obtain ⟨names, hs⟩ := bodyReader_cases hs
  exact passes_statements hv h hw hinside hs

/-- A source that the grammar derives is read without errors. -/
theorem passes_program {fuel : Nat} (hv : Program v) (h : s.Reads v) (hglobal : s.isGlobal = true)
    {names : List SymbolId} (hs : program cStructs fuel s = some (names, s')) :
    s.Passes s' [] := by
  rw [← List.append_nil v] at h
  obtain ⟨first, s₁, hs₁, hcases⟩ := program_cases hs
  have h₁ := passes_statements hv h (fun l hl => nomatch hl) hglobal hs₁
  rcases hcases with ⟨-, -, rfl⟩ | ⟨hother, -⟩
  · exact h₁
  · cases (h₁.reads.check_end_iff.2 rfl).symm.trans hother

end CStruct.Parse
