import CStruct.Proofs.Declared.Sources
import CStruct.Proofs.Statements.Trace

/-!
# The states at which statements start

While a source is read, statement follows upon statement, and the body of a struct has statements of
its own. `Reaches` leads from one state between statements to the next, into bodies as well, also
into those of structs that never come to an end. All these states are `Regular`, unless the end has been
read before: with a table that gives the end another name, statements go on there.
-/

namespace CStruct.Parse

open SymbolTable State

variable {t : SymbolTable} {s s' s₁ inside : State} {keyword : SymbolId} {fuel : Nat}
  {P : SymbolId → Prop} {readBody : State → Option State} {name? : Option SymbolId}

/-! ## The body of a struct -/

namespace State

/-- The tag of a struct whose keyword has been passed, if it has one. -/
def tag? (s : State) : Option SymbolId := if s.current.kind = .name then some s.token else none

/-- Passes the tag of a struct, if it has one. -/
def passTag (t : SymbolTable) (s : State) : State := if s.tag?.isSome then s.advance t else s

/-- Passes the keyword and the tag of the struct at the token. -/
def passHead (t : SymbolTable) (s : State) : State := (s.enterStatement t).passTag t

/-- Declares the tag of the struct at the token, if it has one, and passes the opening brace. -/
def passOpenBrace (t : SymbolTable) (s : State) : State :=
  ((s.enterStatement t).tag?.elim (s.passHead t)
    fun tag => (s.passHead t).define tag s.token).expect t openBrace

/-- Where the body of the struct at the token starts, unless the struct is declared ahead. -/
def body? (t : SymbolTable) (s : State) : Option State :=
  if (s.passHead t).check ";" then none else some (s.passOpenBrace t).openScope

end State

theorem statement_of_std_struct (hstd : s.current.role.std = some .struct) :
    statement t readBody s =
      if (s.passHead t).check ";" then
        some (forwardDeclaration s.token (s.enterStatement t).tag? ((s.passHead t).advance t))
      else
        (readBody (s.passOpenBrace t).openScope).map
          (structEnd t s.token (s.enterStatement t).tag? (s.passOpenBrace t).openScope.scope) := by
  rw [statement, hstd]
  rfl

/-- A struct is declared ahead, or what stands in its body is read. -/
theorem statement_struct_cases (hstd : s.current.role.std = some .struct)
    (h : statement t readBody s = some (name?, s')) :
    (s.body? t = none ∧
      s' = (forwardDeclaration s.token (s.enterStatement t).tag? ((s.passHead t).advance t)).2) ∨
    ∃ s₂, s.body? t = some (s.passOpenBrace t).openScope ∧
      readBody (s.passOpenBrace t).openScope = some s₂ ∧
      s' = (structEnd t s.token (s.enterStatement t).tag?
        (s.passOpenBrace t).openScope.scope s₂).2 := by
  rw [statement_of_std_struct hstd] at h
  unfold State.body?
  split at h
  · rename_i hcheck
    exact .inl ⟨if_pos hcheck, (congrArg Prod.snd (Option.some.inj h)).symm⟩
  · rename_i hcheck
    obtain ⟨s₂, h₂, h₃⟩ := Option.map_eq_some_iff.1 h
    exact .inr ⟨s₂, if_neg hcheck, h₂, (congrArg Prod.snd h₃).symm⟩

theorem trace_passOpenBrace (t : SymbolTable) (s : State) : Trace t s (s.passOpenBrace t) := by
  have hhead : Trace t s (s.passHead t) := by
    apply (Trace.of_enterStatement t s).trans
    unfold State.passHead State.passTag
    split
    · exact .advance _
    · exact .refl _
  exact (hhead.trans (.of_define? _ _ _)).trans (.expect _ _)

theorem State.Halted.body {id : String} (h : s.Halted id) (hbody : s.body? t = some inside) :
    inside.Halted id := by
  unfold State.body? at hbody
  split at hbody
  · cases hbody
  · rw [← Option.some.inj hbody]
    exact (h.trace (trace_passOpenBrace t s)).openScope

/-- The keyword and the tag have been passed, and nothing has been declared. -/
theorem brings_passHead (hs : s.Steady) (hc : s.Consistent P) (he : s.endSymbol? = none)
    (hstd : s.current.role.std = some .struct) :
    Brings P [] s (s.passHead t) ∧ (s.passHead t).IsKeyword s.token .struct ∧
      ∀ tag ∈ (s.enterStatement t).tag?, (s.passHead t).IsTag s.token tag := by
  obtain ⟨hidle, hkeyword, htoken⟩ := idle_enterStatement (t := t) hs he hstd
  have hstart := Brings.of_idle hs hc hidle
  unfold State.passHead State.passTag State.tag?
  split
  · rename_i hname
    rw [if_pos (Option.isSome_some)]
    refine ⟨hstart.advance hs t,
      (Idle.advance _ hstart.steady t).isKeyword hstart.steady.bounds hkeyword, ?_⟩
    rintro tag ⟨⟩
    exact (isTag_advance hstart.steady hname htoken t).1
  · rw [if_neg (by rw [Option.isSome_none]; exact Bool.false_ne_true)]
    exact ⟨hstart, hkeyword, fun tag htag => absurd htag (Option.not_mem_none tag)⟩

/-- The tag has been declared, if there is one. -/
theorem brings_defineTag (hs : s.Steady) (hc : s.Consistent P) (he : s.endSymbol? = none)
    (hstd : s.current.role.std = some .struct) :
    ∃ Q names, Brings Q names s ((s.enterStatement t).tag?.elim (s.passHead t)
      fun tag => (s.passHead t).define tag s.token) := by
  obtain ⟨hhead, hkeyword, htag⟩ := brings_passHead (t := t) hs hc he hstd
  cases htag? : (s.enterStatement t).tag? with
  | none =>
    rw [Option.elim_none]
    exact ⟨P, [], hhead⟩
  | some tag =>
    rw [Option.elim_some]
    exact ⟨_, _, (brings_tag hhead hkeyword (htag tag htag?)).1⟩

/-! ## Reaching -/

/-- From one state between statements to another. -/
inductive Reaches (t : SymbolTable) (s : State) : State → Prop
  | refl : Reaches t s s
  | statement {s₁ s₂ : State} {fuel : Nat} {name? : Option SymbolId} (h : Reaches t s s₁)
    (hopen : s₁.atClose = false)
    (hread : statement t (bodyReader t fuel) s₁ = some (name?, s₂)) : Reaches t s s₂
  | body {s₁ inside : State} (h : Reaches t s s₁) (hopen : s₁.atClose = false)
    (hstd : s₁.current.role.std = some .struct) (hbody : s₁.body? t = some inside) :
    Reaches t s inside
  | stray {s₁ : State} (h : Reaches t s s₁) (hglobal : s₁.isGlobal = true)
    (hclose : s₁.check closeBrace = true) :
    Reaches t s ((s₁.report s₁.token (.unexpected s₁.current.value)).advance t)

namespace Reaches

/-- Reading statements ends in a state that is reached. -/
theorem statements {names : List SymbolId} (h : Reaches t s s₁)
    (hread : Parse.statements t fuel s₁ = some (names, s')) : Reaches t s s' := by
  induction fuel generalizing s₁ names with
  | zero =>
    unfold Parse.statements at hread
    split at hread
    · cases hread
      exact h
    · cases hread
  | succ fuel ih =>
    unfold Parse.statements at hread
    split at hread
    · cases hread
      exact h
    · rename_i hopen
      dsimp only at hread
      split at hread
      · cases hread
      · rename_i name? s₂ h₂
        obtain ⟨⟨others, s₃⟩, h₃, h₄⟩ := Option.map_eq_some_iff.1 hread
        cases h₄
        exact ih (.statement h (Bool.eq_false_iff.2 hopen) h₂) h₃

/-- What reading keeps, and opening a scope, holds wherever a statement starts. -/
theorem keeps {I : State → Prop} (htrace : ∀ s s', Trace t s s' → I s → I s')
    (hopenScope : ∀ s, I s → I s.openScope) (h : Reaches t s s') (hs : I s) : I s' := by
  induction h with
  | refl => exact hs
  | statement _ _ hread ih =>
    exact htrace _ _ (.of_statement (fun _ _ => Trace.of_bodyReader) hread) ih
  | body _ _ _ hbody ih =>
    unfold State.body? at hbody
    split at hbody
    · cases hbody
    · rw [← Option.some.inj hbody]
      exact hopenScope _ (htrace _ _ (trace_passOpenBrace t _) ih)
  | stray _ _ _ ih => exact htrace _ _ ((Trace.report _ _ _).trans (.advance _)) ih

end Reaches

/-! ## What holds there -/

namespace State

/-- Between statements the token is new and all declarations agree, but for the tags of the structs
around it, which are still being declared. Names stand in scopes that are there. -/
structure Regular (s : State) : Prop where
  steady : s.Steady
  consistent : ∃ P, s.Consistent P
  scope_lt : ∀ d k, s.DeclaredIn d k → k < s.scopes.size

namespace Regular

theorem open_lt (h : s.Regular) : s.scope < s.scopes.size := by
  obtain ⟨P, hc⟩ := h.consistent
  exact hc.nested.open_lt s.scope List.mem_cons_self

/-- Names are declared in scopes that are there. -/
theorem scope_lt_of_within (h : s.Regular) (hwithin : s.Within s') {d : SymbolId} {k : ScopeId}
    (hk : s'.DeclaredIn d k) : k < s'.scopes.size := by
  rcases hwithin.declaredIn d k hk with hold | rfl | ⟨-, hlt⟩
  · exact Nat.lt_of_lt_of_le (h.scope_lt d k hold) hwithin.scopes_le
  · exact Nat.lt_of_lt_of_le h.open_lt hwithin.scopes_le
  · exact hlt

theorem of_brings {names : List SymbolId} (h : s.Regular) (hwithin : s.Within s')
    (hbrings : Brings P names s s') : s'.Regular :=
  ⟨hbrings.steady, ⟨P, hbrings.consistent⟩, fun _ _ => h.scope_lt_of_within hwithin⟩

theorem openScope (h : s.Regular) : s.openScope.Regular where
  steady := h.steady.openScope
  consistent := h.consistent.imp fun _ hc => hc.openScope
  scope_lt := fun d k hk => by
    rw [State.openScope, Array.size_push]
    exact Nat.lt_succ_of_lt (h.scope_lt d k hk)

end Regular

end State

theorem bringsBody_bodyReader (t : SymbolTable) (fuel : Nat) : BringsBody (bodyReader t fuel) := by
  intro Q s s' hs hc h
  obtain ⟨⟨names, s₁⟩, h₁, rfl⟩ := Option.map_eq_some_iff.1 h
  exact ⟨names, brings_statements hs hc h₁⟩

namespace State.Regular

theorem statement (h : s.Regular) (he : s.endSymbol? = none)
    (hread : Parse.statement t (bodyReader t fuel) s = some (name?, s')) : s'.Regular := by
  obtain ⟨P, hc⟩ := h.consistent
  have hbrings := brings_statement h.steady hc he (bringsBody_bodyReader t fuel) hread
  exact h.of_brings (Trace.of_statement (fun _ _ => Trace.of_bodyReader) hread).within hbrings

theorem passOpenBrace (h : s.Regular) (he : s.endSymbol? = none)
    (hstd : s.current.role.std = some .struct) : (s.passOpenBrace t).Regular := by
  obtain ⟨P, hc⟩ := h.consistent
  obtain ⟨Q, names, hdefine⟩ := brings_defineTag (t := t) h.steady hc he hstd
  exact h.of_brings (trace_passOpenBrace t s).within (hdefine.expect h.steady t _)

theorem body (h : s.Regular) (he : s.endSymbol? = none)
    (hstd : s.current.role.std = some .struct) (hbody : s.body? t = some inside) :
    inside.Regular := by
  unfold State.body? at hbody
  split at hbody
  · cases hbody
  · rw [← Option.some.inj hbody]
    exact (h.passOpenBrace he hstd).openScope

theorem advance (h : s.Regular) (t : SymbolTable) : (s.advance t).Regular := by
  obtain ⟨P, hc⟩ := h.consistent
  exact h.of_brings (Trace.advance (t := t) s).within
    (.of_idle h.steady hc (.advance _ h.steady t))

theorem report (h : s.Regular) (id : SymbolId) (problem : Problem) :
    (s.report id problem).Regular := by
  obtain ⟨P, hc⟩ := h.consistent
  exact h.of_brings (Trace.report (t := .basic) s id problem).within
    (.of_idle h.steady hc (.report _ h.steady id problem))

end State.Regular

/-- Before the end a state is regular as it stands, and at the end nothing moves on. -/
theorem State.Regular.live_or_halted (h : s.Regular) :
    s.Regular ∧ s.endSymbol? = none ∨ ∃ id, s.Halted id := by
  cases he : s.endSymbol? with
  | none => exact .inl ⟨h, rfl⟩
  | some e =>
    exact .inr ⟨s.current.id, h.steady.ended (by rw [he]; exact Option.some_ne_none e) (·.id)⟩

theorem Reaches.live_or_halted (h : Reaches t s s') (hs : s.Regular) :
    s'.Regular ∧ s'.endSymbol? = none ∨ ∃ id, s'.Halted id := by
  induction h with
  | refl => exact hs.live_or_halted
  | statement _ _ hread ih =>
    rcases ih with ⟨hregular, he⟩ | ⟨id, hhalted⟩
    · exact (hregular.statement he hread).live_or_halted
    · exact .inr ⟨id, hhalted.trace (.of_statement (fun _ _ => Trace.of_bodyReader) hread)⟩
  | body _ _ hstd hbody ih =>
    rcases ih with ⟨hregular, he⟩ | ⟨id, hhalted⟩
    · exact (hregular.body he hstd hbody).live_or_halted
    · exact .inr ⟨id, hhalted.body hbody⟩
  | stray _ _ _ ih =>
    rcases ih with ⟨hregular, -⟩ | ⟨id, hhalted⟩
    · exact ((hregular.report _ _).advance t).live_or_halted
    · exact .inr ⟨id, hhalted.trace ((Trace.report _ _ _).trans (.advance _))⟩

/-- Wherever a statement starts before the end, the state is regular. -/
theorem Reaches.regular (h : Reaches t s s') (hs : s.Regular) (he : s'.endSymbol? = none) :
    s'.Regular := by
  rcases h.live_or_halted hs with ⟨hregular, -⟩ | ⟨id, hhalted⟩
  · exact hregular
  · rw [hhalted.endSymbol?] at he
    cases he

/-- Reading a source starts regular, with any table. -/
theorem regular_ofLexemes (t : SymbolTable) (lexemes : List Lexeme) (endPosition : Position) :
    ((State.ofLexemes lexemes endPosition).advance t).Regular := by
  obtain ⟨hs, hc⟩ := (consistent_ofLexemes lexemes endPosition).pass rfl
    (fun d _ hd => absurd rfl hd) t
  refine ⟨hs, ⟨_, hc⟩, fun d k hk => ?_⟩
  have hwithin := (Trace.advance (t := t) (State.ofLexemes lexemes endPosition)).within
  rcases hwithin.declaredIn d k hk with ⟨hnone, -⟩ | rfl | ⟨-, hlt⟩
  · exact absurd rfl hnone
  · exact Nat.lt_of_lt_of_le Nat.zero_lt_one hwithin.scopes_le
  · exact hlt

/-! ## What reading knows of the end -/

theorem leads_passOpenBrace (h : s.Sound t) (he : s.endSymbol? = none) :
    s.Leads t (s.passOpenBrace t) := by
  have henter := (advances_enterStatement h he).leads
  have htag : PlainTag (s.enterStatement t) (s.enterStatement t).tag? := by
    intro tag htag
    unfold State.tag? at htag
    split at htag
    · rename_i hname
      cases htag
      exact henter.sound.plain_token (henter.sound.not_end hname)
    · cases htag
  have hpass : (s.enterStatement t).Leads t (s.passHead t) := by
    unfold State.passHead State.passTag
    split
    · exact henter.sound.advance
    · exact .refl henter.sound
  have hdefine := hpass.trans (leads_elim hpass.sound (hpass.plainTag htag)
    fun tag hplain => hpass.sound.define hplain s.token)
  exact (henter.trans hdefine).trans (hdefine.sound.expect openBrace)

/-- Where the end is named as it should be and stops every expression, it is known wherever a
statement starts. -/
theorem Reaches.sound (ht : t.Ends) (h : Reaches t s s') (hregular : s.Regular) (hs : s.Sound t) :
    s'.Sound t := by
  induction h with
  | refl => exact hs
  | @statement s₁ s₂ fuel name? h hopen hread ih =>
    have he := not_end_of_not_atClose ih ht (Bool.eq_false_iff.1 hopen)
    have hpoised : s₁.Poised t := ⟨ih, (h.regular hregular he).steady.undeclared⟩
    have hbody : ∀ s s', s.Poised t → bodyReader t fuel s = some s' → Course t s s' := by
      intro s s' hs hread
      obtain ⟨⟨names, s₁⟩, h₁, rfl⟩ := Option.map_eq_some_iff.1 hread
      exact course_statements ht.toStops hs h₁
    have hcourse := course_statement ht.toStops hpoised he hbody hread
    exact (hcourse.proceeds ht.toStops hpoised).leads.sound
  | body h hopen hstd hbody ih =>
    unfold State.body? at hbody
    split at hbody
    · cases hbody
    · rw [← Option.some.inj hbody]
      exact (leads_passOpenBrace ih
        (not_end_of_not_atClose ih ht (Bool.eq_false_iff.1 hopen))).sound.openScope.sound
  | stray _ _ _ ih => exact ((ih.report _ _).sound.advance).sound

/-- Where the first statement of a C source starts. -/
def State.ofSource (source : String) : State :=
  (State.ofLexemes (Lexicon.lexemes source).1 (Lexicon.lexemes source).2.position).advance cStructs

end CStruct.Parse
