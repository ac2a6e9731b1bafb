import CStruct.Proofs.Grammar.Complete
import CStruct.Proofs.Rendering.Entries

/-!
# Reading written members

While the body of a struct is read, the open scope holds its members in the order in which they were
written.
-/

namespace CStruct.Rendering

open SymbolTable Parse Parse.State Grammar

variable {lo keyword : SymbolId} {s s' : State} {m : WrittenMember} {ms others : List WrittenMember}
  {v w : List Lexeme}

/-! ## Writing is deriving -/

theorem derives_declarator (hv : WritesDeclarator m v) : Derives .declarator v := by
  cases hv with
  | scalar hname => exact .scalar hname
  | array hname _ ho hn hc => exact .array hname ho hn hc

theorem derives_declarators (hv : WritesDeclarators ms v) : Derives .declarators v := by
  induction hv with
  | last hv => exact .last (derives_declarator hv)
  | more hv hc _ ih => exact .more (derives_declarator hv) hc ih

theorem derives_members (hv : WritesMembers ms v) : Derives (.statements true) v := by
  induction hv with
  | nil => exact .nil
  | @cons ms others t e v w ht _ hv he _ ih =>
    have hmembers : Derives .members (t :: v ++ [e]) := .members ht (derives_declarators hv) he
    have := Derives.consMembers hmembers ih
    rw [List.append_assoc] at this
    exact this

/-! ## One member -/

/-- What is known of a declared member. -/
structure IsMember (lo : SymbolId) (s : State) (name : String) (id : SymbolId) (m : WrittenMember) :
    Prop where
  key : name = m.name.text
  plain : cStructs.get? name = none
  above : lo ≤ id
  below : id < s.token
  value : (s.symbol id).value = m.name.text
  span : (s.symbol id).span = m.name.span
  kind : (s.symbol id).kind = .name
  type : ∃ t, lo ≤ t ∧ t < s.token ∧ (s.symbol id).declaredType? = some t ∧
    (s.symbol t).value = m.type.keyword
  length : (s.symbol id).dimension?.map (fun n => (s.symbol n).value) = m.length?.map (·.text)
  -- the length is known before the member is dealt with
  length_mem : ∀ n ∈ (s.symbol id).dimension?, lo ≤ n ∧ n < s.token

theorem IsMember.mono {name : String} {id : SymbolId} (h : IsMember lo s name id m)
    (hs : Agrees lo s s') : IsMember lo s' name id m := by
  have hsymbol := hs.symbol id h.above h.below
  obtain ⟨t, hlo, ht, htype, hvalue⟩ := h.type
  exact
    { key := h.key
      plain := h.plain
      above := h.above
      below := Nat.lt_of_lt_of_le h.below hs.token_le
      value := by rw [hsymbol]; exact h.value
      span := by rw [hsymbol]; exact h.span
      kind := by rw [hsymbol]; exact h.kind
      type := ⟨t, hlo, Nat.lt_of_lt_of_le ht hs.token_le, by rw [hsymbol]; exact htype,
        by rw [hs.symbol t hlo ht]; exact hvalue⟩
      length := by
        rw [hsymbol, ← h.length]
        cases hn : (s.symbol id).dimension? with
        | none => rfl
        | some n =>
          obtain ⟨hlo, hlt⟩ := h.length_mem n hn
          rw [Option.map_some, Option.map_some, hs.symbol n hlo hlt]
      length_mem := by
        rw [hsymbol]
        intro n hn
        exact ⟨(h.length_mem n hn).1, Nat.lt_of_lt_of_le (h.length_mem n hn).2 hs.token_le⟩ }

theorem IsMember.isDeclaration {name : String} {id : SymbolId} (h : IsMember lo s name id m) :
    (s.symbol id).isDeclaration = true := by
  obtain ⟨t, -, -, htype, -⟩ := h.type
  rw [Symbol.isDeclaration, h.kind]
  cases hd : (s.symbol id).declaration? with
  | none =>
    rw [Symbol.declaredType?, hd] at htype
    cases htype
  | some d => rfl

/-- The open scope holds these members. -/
structure Body (lo : SymbolId) (s : State) (ms : List WrittenMember) : Prop where
  size : s.scope < s.scopes.size
  below : lo ≤ s.token
  holds : Holds lo s (IsMember lo s) s.entries ms

/-- A scope that has been closed and holds these members. -/
structure HasMembers (lo : SymbolId) (s : State) (b : ScopeId) (ms : List WrittenMember) : Prop where
  size : b < s.scopes.size
  closed : b ≠ s.scope
  holds : Holds lo s (IsMember lo s) (s.scopeAt b).definitions.entries ms

theorem HasMembers.mono {b : ScopeId} {T : SymbolId → Prop} (h : HasMembers lo s b ms)
    (hs : s.token < s.symbols.size) (hframe : Frame T s s')
    (ht : ∀ id, lo ≤ id → id < s.token → ¬T id) : HasMembers lo s' b ms where
  size := Nat.lt_of_lt_of_le h.size hframe.scopes_le
  closed := by
    rw [hframe.scope]
    exact h.closed
  holds := by
    have hagrees := agrees_of_frame hs hframe ht
    rw [hframe.scopeAt b h.size h.closed]
    exact h.holds.mono hagrees fun _ _ _ hm => hm.mono hagrees

def memberKey (m : WrittenMember) : String := m.name.text

/-- A new member goes behind the others. -/
theorem Body.add (h : Body lo s ms) (hs : s.token < s.symbols.size)
    (hframe : Frame (s.token ≤ ·) s s')
    (hentries : s'.entries = s.entries ++ [(m.name.text, s.token)])
    (hmember : IsMember lo s' m.name.text s.token m) : Body lo s' (ms ++ [m]) where
  size := by
    rw [hframe.scope]
    exact Nat.lt_of_lt_of_le h.size hframe.scopes_le
  below := Nat.le_trans h.below hframe.token_le
  holds := by
    have hagrees : Agrees lo s s' :=
      agrees_of_frame hs hframe fun id _ hid => Nat.not_le_of_lt hid
    rw [hentries]
    exact (h.holds.mono hagrees fun _ _ _ hm => hm.mono hagrees).append (.declared hmember .nil)

theorem Body.local?_eq_none (h : Body lo s ms) (hget : cStructs.get? m.name.text = none)
    (hnew : memberKey m ∉ ms.map memberKey) : s.local? m.name.text = none :=
  h.holds.lookup_eq_none (fun _ _ _ hm => hm.key) hget hnew

theorem isMember_of_declaration (n? : Option SymbolId) {id : SymbolId} {t : Lexeme} (hlo : lo ≤ id)
    (hid : id < s.token) (hplain : cStructs.get? m.name.text = none) (hknows : s.Knows id m.name)
    (hkind : (s.symbol id).kind = .name)
    (hdeclaration : (s.symbol id).declaration? = some { declaredType := keyword, dimension? := n? })
    (hkeyword : s.Knows keyword t) (htype : m.type.keyword = t.text) (hlo' : lo ≤ keyword)
    (hlt : keyword < s.token) (hlength : n?.map (fun n => (s.symbol n).value) = m.length?.map (·.text))
    (hn : ∀ n ∈ n?, lo ≤ n ∧ n < s.token) : IsMember lo s m.name.text id m where
  key := rfl
  plain := hplain
  above := hlo
  below := hid
  value := hknows.spells.value
  span := hknows.spells.span
  kind := hkind
  type := by
    refine ⟨keyword, hlo', hlt, ?_, hkeyword.spells.value.trans htype.symm⟩
    rw [Symbol.declaredType?, hdeclaration]
    rfl
  length := by
    rw [Symbol.dimension?, hdeclaration]
    exact hlength
  length_mem := by
    rw [Symbol.dimension?, hdeclaration]
    exact hn

/-- The name of a member is declared, and passed. -/
theorem frame_memberName {n : Lexeme} (keyword : SymbolId) (h : s.Reads (n :: w)) (hn : n.IsIdent)
    (hsize : s.scope < s.scopes.size) (hnew : s.local? n.text = none) :
    Frame (s.token ≤ ·) s ((s.define s.token keyword).advance cStructs) ∧
      ((s.define s.token keyword).advance cStructs).entries = s.entries ++ [(n.text, s.token)] ∧
      s.token < ((s.define s.token keyword).advance cStructs).token ∧
      ((s.define s.token keyword).advance cStructs).symbol s.token =
        s.declaredAs (s.symbol s.token) { declaredType := keyword } := by
  have hvalue := h.knows_token.spells.value
  obtain ⟨hframe, hentries, hdeclared⟩ := frame_define (T := (s.token ≤ ·)) keyword
    (Nat.le_refl _) h.sound.token_lt hsize (by rw [hvalue]; exact hnew)
  have hread := (h.passes_define hn keyword).reads
  obtain ⟨hframe₁, hentries₁, hlt₁⟩ := hread.frame_advance (T := (s.token ≤ ·))
  rw [token_define] at hlt₁
  refine ⟨hframe.trans hframe₁, ?_, hlt₁, ?_⟩
  · rw [hentries₁, hentries, hvalue]
  · rw [(hread.passed (Nat.lt_of_lt_of_le h.sound.token_lt hframe.symbols_le)).2, hdeclared]

/-- A number in brackets is passed, and nothing that stood before it changes. -/
theorem frame_brackets {o n c : Lexeme} (h : s.Reads (o :: n :: c :: w)) :
    Frame (fun _ => False) s (((s.advance cStructs).advance cStructs).advance cStructs) ∧
      (((s.advance cStructs).advance cStructs).advance cStructs).entries = s.entries ∧
      s.token < (s.advance cStructs).token ∧
      (s.advance cStructs).token <
        (((s.advance cStructs).advance cStructs).advance cStructs).token ∧
      (((s.advance cStructs).advance cStructs).advance cStructs).Knows
        (s.advance cStructs).token n := by
  have h₁ := h.advance.reads
  have h₂ := h₁.advance.reads
  obtain ⟨hframe₁, hentries₁, hlt₁⟩ := h.frame_advance (T := fun _ => False)
  obtain ⟨hframe₂, hentries₂, hlt₂⟩ := h₁.frame_advance (T := fun _ => False)
  obtain ⟨hframe₃, hentries₃, hlt₃⟩ := h₂.frame_advance (T := fun _ => False)
  exact ⟨hframe₁.trans (hframe₂.trans hframe₃), hentries₃.trans (hentries₂.trans hentries₁), hlt₁,
    Nat.lt_trans hlt₂ hlt₃, (h₁.advance.trans h₂.advance).keeps.knows _ n h₁.knows_token⟩

theorem body_declarator (hv : WritesDeclarator m v) (h : s.Reads (v ++ w))
    (hw : ∀ l ∈ w.head?, ¬l.IsOperator "[") (hs : declarator cStructs keyword s = some s')
    {t : Lexeme} (hkeyword : s.Knows keyword t) (hlo : lo ≤ keyword) (hlt : keyword < s.token)
    (htype : m.type.keyword = t.text) (hbody : Body lo s ms)
    (hnew : memberKey m ∉ ms.map memberKey) :
    Frame (s.token ≤ ·) s s' ∧ Body lo s' (ms ++ [m]) := by
  have hpasses := passes_declarator (derives_declarator hv) h hw hs
  have hkeyword' := hpasses.keeps.knows keyword t hkeyword
  obtain ⟨rest, rfl, hname⟩ := head_declarator hv
  rw [List.cons_append] at h
  have hknows := hpasses.keeps.knows _ _ h.knows_token
  have hget := (h.ordinary.each m.name List.mem_cons_self).get?_of_ident hname
  have htoken := h.sound.token_lt
  obtain ⟨hframe₁, hentries₁, hlt₁, hsymbol₁⟩ :=
    frame_memberName keyword h hname hbody.size (hbody.local?_eq_none hget hnew)
  have hread₁ := (h.passes_define hname keyword).reads.advance.reads
  generalize hv' : m.name :: rest = v at hv
  cases hv with
  | scalar _ hlength =>
    cases hv'
    rw [declarator_of_scalar h hname hw] at hs
    cases hs
    refine ⟨hframe₁, hbody.add htoken hframe₁ hentries₁ ?_⟩
    refine isMember_of_declaration none hbody.below hlt₁ hget hknows (by rw [hsymbol₁]; rfl)
      (by rw [hsymbol₁]; rfl) hkeyword' htype hlo (Nat.lt_trans hlt hlt₁) ?_ nofun
    rw [hlength]
    rfl
  | @array o n c _ hlength ho hn hc =>
    cases hv'
    rw [declarator_of_array h hname ho] at hs
    -- the length is recorded once the bracket behind it has been passed
    have hs := dimension_of_number hread₁.advance.reads hn hs
    rw [hread₁.advance.reads.advance.reads.expect_eq (by decide) hc] at hs
    obtain ⟨hframe₂, hentries₂, hlt₂, hlt₃, hknows₂⟩ := frame_brackets hread₁
    have htoken₁ := Nat.lt_trans hlt₁ hread₁.sound.token_lt
    generalize (s.define s.token keyword).advance cStructs = s₁ at *
    generalize (s₁.advance cStructs).token = length at *
    generalize ((s₁.advance cStructs).advance cStructs).advance cStructs = s₂ at *
    have hlength₁ : s.token < length := Nat.lt_trans hlt₁ hlt₂
    have htoken₂ : s.token < s₂.symbols.size := Nat.lt_of_lt_of_le htoken₁ hframe₂.symbols_le
    have hframe : Frame (s.token ≤ ·) s s' := by
      rw [hs]
      exact (hframe₁.trans (hframe₂.mono fun _ => False.elim)).trans
        (frame_modifySymbol (Nat.le_refl _) _)
    have hself : s'.symbol s.token = s.declaredAs (s.symbol s.token)
        { declaredType := keyword, dimension? := some length } := by
      rw [hs, State.modifyDeclaration, symbol_modifySymbol_self htoken₂,
        hframe₂.symbol s.token htoken₁ id, hsymbol₁]
      rfl
    have hvalue : (s'.symbol length).value = n.text := by
      rw [hs, State.modifyDeclaration, symbol_modifySymbol_of_ne (Nat.ne_of_gt hlength₁),
        hknows₂.spells.value]
    have htoken' : s'.token = s₂.token := by rw [hs]; rfl
    refine ⟨hframe, hbody.add htoken hframe (by rw [hs]; exact hentries₂.trans hentries₁) ?_⟩
    refine isMember_of_declaration (some length) hbody.below ?_ hget hknows (by rw [hself]; rfl)
      (by rw [hself]; rfl) hkeyword' htype hlo (Nat.lt_of_lt_of_le hlt hframe.token_le) ?_ ?_
    · rw [htoken']
      exact Nat.lt_trans hlength₁ hlt₃
    · rw [hlength, Option.map_some, Option.map_some, hvalue]
    · rintro _ ⟨⟩
      rw [htoken']
      exact ⟨Nat.le_trans hbody.below (Nat.le_of_lt hlength₁), hlt₃⟩

/-! ## All members -/

theorem Body.of_frame (h : Body lo s ms) (hs : s.token < s.symbols.size)
    (hframe : Frame (s.token ≤ ·) s s') (hentries : s'.entries = s.entries) : Body lo s' ms where
  size := by
    rw [hframe.scope]
    exact Nat.lt_of_lt_of_le h.size hframe.scopes_le
  below := Nat.le_trans h.below hframe.token_le
  holds := by
    have hagrees : Agrees lo s s' :=
      agrees_of_frame hs hframe fun id _ hid => Nat.not_le_of_lt hid
    rw [hentries]
    exact h.holds.mono hagrees fun _ _ _ hm => hm.mono hagrees

-- Steps that touch nothing that was dealt with before them.
theorem frame_trans {s'' : State} (h : Frame (s.token ≤ ·) s s') (h' : Frame (s'.token ≤ ·) s' s'') :
    Frame (s.token ≤ ·) s s'' :=
  h.trans (h'.mono fun _ hid => Nat.le_trans h.token_le hid)

theorem Body.advance {l : Lexeme} (h : Body lo s ms) (hs : s.Reads (l :: w)) :
    Frame (s.token ≤ ·) s (s.advance cStructs) ∧ Body lo (s.advance cStructs) ms := by
  obtain ⟨hframe, hentries, -⟩ := hs.frame_advance (T := (s.token ≤ ·))
  exact ⟨hframe, h.of_frame hs.sound.token_lt hframe hentries⟩

theorem not_mem_of_nodup (h : ((ms ++ m :: others).map memberKey).Nodup) :
    memberKey m ∉ ms.map memberKey := by
  rw [List.map_append, List.map_cons] at h
  exact fun hmem => List.disjoint_of_nodup_append h hmem List.mem_cons_self

theorem body_declarators {fuel : Nat} (hv : WritesDeclarators others v) (h : s.Reads (v ++ w))
    (hw : ∀ l ∈ w.head?, ¬l.IsOperator "[" ∧ ¬l.IsOperator ",")
    (hs : declarators cStructs keyword fuel s = some s') {t : Lexeme} (hkeyword : s.Knows keyword t)
    (hlo : lo ≤ keyword) (hlt : keyword < s.token) (htype : ∀ m ∈ others, m.type.keyword = t.text)
    (hbody : Body lo s ms) (hnew : ((ms ++ others).map memberKey).Nodup) :
    Frame (s.token ≤ ·) s s' ∧ Body lo s' (ms ++ others) := by
  -- on the fuel, which the recursion behind a comma spends
  induction fuel using Nat.strongRecOn generalizing s v ms others with
  | ind fuel ih =>
    obtain ⟨s₁, hs₁, hcases⟩ := declarators_cases hs
    cases hv with
    | @last m _ hd =>
      have hw' : ∀ l ∈ w.head?, ¬l.IsOperator "[" := fun l hl => (hw l hl).1
      have h₁ := passes_declarator (derives_declarator hd) h hw' hs₁
      rcases hcases with ⟨-, rfl⟩ | ⟨hcheck, -⟩
      · exact body_declarator hd h hw' hs₁ hkeyword hlo hlt (htype m List.mem_cons_self) hbody
          (not_mem_of_nodup hnew)
      · obtain ⟨l, hl, hop⟩ := (h₁.reads.check_iff (by decide)).1 hcheck
        exact absurd hop (hw l hl).2
    | @more m others c v₁ v₂ hd hc hv =>
      rw [List.append_assoc, List.cons_append] at h
      have hnext : ∀ l ∈ (c :: (v₂ ++ w)).head?, ¬l.IsOperator "[" := by
        rintro l ⟨⟩ hop
        exact absurd (hc.2.symm.trans hop.2) (by decide)
      have h₁ := passes_declarator (derives_declarator hd) h hnext hs₁
      have hcheck : s₁.check "," = true := (h₁.reads.check_iff (by decide)).2 ⟨c, rfl, hc⟩
      rcases hcases with ⟨hother, -⟩ | ⟨-, rest, rfl, hs₂⟩
      · cases hcheck.symm.trans hother
      · obtain ⟨hframe₁, hbody₁⟩ := body_declarator hd h hnext hs₁ hkeyword hlo hlt
          (htype m List.mem_cons_self) hbody (not_mem_of_nodup hnew)
        obtain ⟨hframe₂, hbody₂⟩ := hbody₁.advance h₁.reads
        have h₂ := h₁.trans h₁.reads.advance
        have hframe := frame_trans hframe₁ hframe₂
        rw [← List.singleton_append, ← List.append_assoc] at hnew ⊢
        obtain ⟨hframe₃, hbody₃⟩ := ih rest (Nat.lt_succ_self rest) hv h₂.reads hs₂
          (h₂.keeps.knows keyword t hkeyword) (Nat.lt_of_lt_of_le hlt hframe.token_le)
          (fun m hm => htype m (List.mem_cons_of_mem _ hm)) hbody₂ hnew
        exact ⟨frame_trans hframe hframe₃, hbody₃⟩

theorem isSome_get?_of_type {t : Lexeme} (ht : t.kind = .type) (hord : t.Ordinary) :
    (cStructs.get? t.text).isSome := by
  rw [Lexeme.Ordinary, ht] at hord
  obtain ⟨p, hp⟩ := hord
  have hall : ∀ p ∈ PrimitiveType.all, (cStructs.get? p.keyword).isSome := by decide
  rw [← hp]
  exact hall p p.mem_all

theorem body_statement {readBody : State → Option State} {name? : Option SymbolId} {t e : Lexeme}
    (h : s.Reads (t :: (v ++ e :: w))) (ht : t.kind = .type)
    (htype : ∀ m ∈ others, m.type.keyword = t.text) (hv : WritesDeclarators others v)
    (he : e.IsOperator ";") (hinside : s.isGlobal = false)
    (hs : statement cStructs readBody s = some (name?, s')) (hbody : Body lo s ms)
    (hnew : ((ms ++ others).map memberKey).Nodup) :
    Frame (s.token ≤ ·) s s' ∧ Body lo s' (ms ++ others) := by
  rw [statement_of_type h ht] at hs
  obtain ⟨s₃, hs₃, heq⟩ := Option.map_eq_some_iff.1 hs
  cases heq
  have hget := isSome_get?_of_type ht (h.ordinary.each t List.mem_cons_self)
  have h₁ := h.enterStatement (.inr ht)
  obtain ⟨hframe₁, hlt₁, hholds₁⟩ := hbody.holds.enterStatement h hget hbody.size hbody.below
    (fun _ _ _ hm => hm.plain) fun _ hframe _ _ _ hm => hm.mono
      (agrees_of_frame h.sound.token_lt hframe fun _ _ hid => Nat.not_le_of_lt hid)
  have hglobal : (s.enterStatement cStructs).isGlobal = false := by
    rw [State.isGlobal, h₁.keeps.outer]
    exact hinside
  have hkeyword := h₁.keeps.knows _ t h.knows_token
  -- from here on the type has been passed
  generalize s.enterStatement cStructs = s₁ at *
  have hbody₁ : Body lo s₁ ms := by
    refine ⟨?_, Nat.le_trans hbody.below hframe₁.token_le, hholds₁⟩
    rw [hframe₁.scope]
    exact Nat.lt_of_lt_of_le hbody.size hframe₁.scopes_le
  rw [members, hglobal, if_neg Bool.false_ne_true] at hs₃
  obtain ⟨s₂, hs₂, hs₃⟩ := Option.map_eq_some_iff.1 hs₃
  have hw : ∀ l ∈ (e :: w).head?, ¬l.IsOperator "[" ∧ ¬l.IsOperator "," := by
    rintro l ⟨⟩
    exact ⟨fun hop => absurd (hop.2.symm.trans he.2) (by decide),
      fun hop => absurd (hop.2.symm.trans he.2) (by decide)⟩
  have h₂ := passes_declarators (derives_declarators hv) h₁.reads hw hs₂
  obtain ⟨hframe₂, hbody₂⟩ := body_declarators hv h₁.reads hw hs₂ hkeyword hbody.below hlt₁ htype
    hbody₁ hnew
  rw [members_of_semicolon h₂.reads he, h₂.reads.expect_eq (by decide) he] at hs₃
  obtain ⟨hframe₃, hbody₃⟩ := hbody₂.advance h₂.reads
  rw [← hs₃]
  exact ⟨frame_trans (frame_trans hframe₁ hframe₂) hframe₃, hbody₃⟩

/-- The members of a body, up to the brace that closes it. -/
theorem body_statements {fuel : Nat} {names : List SymbolId} (hv : WritesMembers others v)
    (h : s.Reads (v ++ w)) (hw : ∀ l ∈ w.head?, l.IsOperator closeBrace)
    (hinside : s.isGlobal = false) (hs : statements cStructs fuel s = some (names, s'))
    (hbody : Body lo s ms) (hnew : ((ms ++ others).map memberKey).Nodup) :
    Frame (s.token ≤ ·) s s' ∧ Body lo s' (ms ++ others) := by
  -- on the members as they were written, one statement after another
  induction hv generalizing fuel names s ms with
  | nil =>
    have hclose : s.atClose = true := by
      rw [h.atClose_iff]
      cases w with
      | nil => exact .inl rfl
      | cons l w => exact .inr ⟨l, rfl, hw l rfl⟩
    rw [statements_of_close hclose hs, List.append_nil]
    exact ⟨.refl _, hbody⟩
  | @cons members others t e v₁ v₂ ht htype hv he hvs ih =>
    rw [List.cons_append, List.append_assoc, List.cons_append] at h
    have hclose : ¬s.atClose = true := by
      rw [h.atClose_iff]
      rintro (hnil | ⟨l, ⟨⟩, hop⟩)
      · cases hnil
      · cases hop.1.symm.trans ht
    obtain ⟨fuel', name?, s₁, rest, hs₁, hs₂⟩ := statements_of_not_close hclose hs
    rw [← List.append_assoc] at hnew ⊢
    have hnew₁ : ((ms ++ members).map memberKey).Nodup := by
      rw [List.map_append] at hnew
      exact hnew.of_append_left
    obtain ⟨hframe₁, hbody₁⟩ := body_statement h ht htype hv he hinside hs₁ hbody hnew₁
    have hmembers : Derives .members (t :: v₁ ++ [e]) := .members ht (derives_declarators hv) he
    have h₁ : s.Passes s₁ (v₂ ++ w) := by
      refine passes_membersStatement hmembers ?_ hinside hs₁
      simpa using h
    have hinside₁ : s₁.isGlobal = false := by
      rw [State.isGlobal, h₁.keeps.outer]
      exact hinside
    obtain ⟨hframe₂, hbody₂⟩ := ih h₁.reads hinside₁ hs₂ hbody₁ hnew
    exact ⟨frame_trans hframe₁ hframe₂, hbody₂⟩

end CStruct.Rendering
