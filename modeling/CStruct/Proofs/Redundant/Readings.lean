import CStruct.Proofs.Redundant.Structs

/-!
# Statements in both readings

A statement that is read without a remark in the first reading is read in the second as well, and so
are the statements of a body or of a whole source, as long as what was put in is not among them.
-/

namespace CStruct.Parse

open SymbolTable State

variable {k : Nat} {n : String} {s s' s₁ s₁' s₂ : State} {id name keyword tag : SymbolId}
  {tag? : Option SymbolId} {body : ScopeId} {fuel fuel' : Nat} {name? name?' : Option SymbolId}

theorem course_bodyReader {t : SymbolTable} (ht : t.Stops) (hs : s.Poised t)
    (h : bodyReader t fuel s = some s₁) : Course t s s₁ := by
  obtain ⟨names, h⟩ := bodyReader_cases h
  exact course_statements ht hs h

theorem trace_passTag (t : SymbolTable) (s : State) : Trace t s (s.passTag t) := by
  unfold State.passTag
  split
  · exact .advance s
  · exact .refl s

/-- The keyword and the tag of a struct. -/
theorem trace_passHead (t : SymbolTable) (s : State) : Trace t s (s.passHead t) :=
  (Trace.of_enterStatement t s).trans (trace_passTag t (s.enterStatement t))

/-- A struct with a body, behind its keyword and its tag. -/
theorem trace_definition {t : SymbolTable} (body : ScopeId)
    (h : bodyReader t fuel (s.enterBody t keyword tag?) = some s₁) :
    Trace t s (structEnd t keyword tag? body s₁).2 :=
  ((((Trace.of_define? s keyword tag?).trans (.expect openBrace _)).block
    (Trace.of_bodyReader h)).trans (.of_structEnd t s₁ keyword tag? body) :)

/-- The same, up to the semicolon. -/
theorem trace_definitionName {t : SymbolTable} (body : ScopeId)
    (h : bodyReader t fuel (s.enterBody t keyword tag?) = some s₁) :
    Trace t s (s₁.endName t keyword tag? body) :=
  (((Trace.of_define? s keyword tag?).trans (.expect openBrace _)).block
    (Trace.of_bodyReader h)).trans (trace_endName t s₁ keyword tag? body)

namespace State

theorem size_define? (s : State) (keyword : SymbolId) (tag? : Option SymbolId) :
    (tag?.elim s fun tag => s.define tag keyword).scopes.size = s.scopes.size := by
  cases tag? with
  | none => rfl
  | some tag => exact (scope_define s tag keyword).2.2

/-- Behind its keyword and its tag, a struct is declared ahead, or its body is read. -/
theorem struct_cases {t : SymbolTable} (hstd : s.current.role.std = some .struct)
    (h : statement t (bodyReader t fuel) s = some (name?, s₁)) :
    ((s.passHead t).check ";" = true ∧ s₁ = (forwardDeclaration s.token (s.enterStatement t).tag?
      ((s.passHead t).advance t)).2) ∨
    ((s.passHead t).check ";" = false ∧ ∃ s₂,
      bodyReader t fuel ((s.passHead t).enterBody t s.token (s.enterStatement t).tag?) = some s₂ ∧
        s₁ = (structEnd t s.token (s.enterStatement t).tag? (s.passHead t).scopes.size s₂).2) := by
  have hbody : (s.passOpenBrace t).openScope.scope = (s.passHead t).scopes.size := by
    rw [scope_openScope, State.passOpenBrace, scopes_expect, size_define?]
  rcases statement_struct_cases hstd h with ⟨hbody?, hs₁⟩ | ⟨s₂, hbody?, h₂, hs₁⟩
  · unfold State.body? at hbody?
    split at hbody?
    · rename_i hcheck
      exact .inl ⟨hcheck, hs₁⟩
    · cases hbody?
  · unfold State.body? at hbody?
    split at hbody?
    · cases hbody?
    · rename_i hcheck
      rw [hbody] at hs₁
      exact .inr ⟨Bool.eq_false_iff.2 hcheck, s₂, h₂, hs₁⟩

/-- What is no typedef name at the end of a run was none at its start. -/
theorem NoAlias.of_run (h : NoAlias n s₁) (hrun : Run cStructs s s₁) (hs : s.Poised cStructs)
    (hlt : s.scope < s.scopes.size) : NoAlias n s := by
  intro id hdeclared halias hvalue hscope
  have hlasts := (hrun.scopeFrame hs hlt).lasts id hdeclared
  exact h id hlasts.declared (hlasts.isAlias.trans halias) (hlasts.value.trans hvalue)
    (hlasts.scope?.trans hscope)

theorem grows_passTag (t : SymbolTable) (s : State) : s.Grows (s.passTag t) := by
  unfold State.passTag
  split
  · exact grows_advance t s
  · exact .refl s

/-- Where a struct starts outside all others, `struct` has just been reserved. -/
theorem Abreast.atRoot (h : Abreast k n s s') (hstd : s.current.role.std = some .struct)
    (hscope : s.scope = 0) : (s.enterStatement cStructs).AtRoot s.token := by
  obtain ⟨p, hp, -, hrole, -⟩ := (h.sensible.typical _ h.spare.lt).table_of_std hstd
  have hvalue : (s.symbol s.token).value = structKeyword :=
    eq_struct_of_get? hp (hrole ▸ hstd)
  have hadvance : ((s.advance cStructs).symbol s.token).value = structKeyword := by
    rw [symbol_advance h.spare.lt]
    exact hvalue
  constructor
  · rw [isStructKeyword, (Trace.of_enterStatement cStructs s).value h.spare.lt, hvalue]
    exact beq_self_eq_true _
  · have hreserve := isSome_reserve (s := s.advance cStructs)
      (by rw [scope_advance.1, scopes_advance]; exact h.scope_lt) s.token
    rw [hadvance, local?, (Trace.reserve (t := cStructs) _ _).within.scope, scope_advance.1,
      hscope] at hreserve
    exact hreserve

/-- Bodies of structs are read in both readings. -/
def BodiesAbreast (k : Nat) (n : String) (fuel fuel' : Nat) : Prop :=
  ∀ s s' s₁ s₁', s.scope ≠ 0 → Abreast k n s s' → bodyReader cStructs fuel s = some s₁ →
    bodyReader cStructs fuel' s' = some s₁' → Quiet k s s' s₁ → s₁.Clean → Abreast k n s₁ s₁'

namespace Abreast

section Reading

variable (hget : cStructs.get? n = none)
include hget

/-! ## Statements other than structs -/

theorem expressionStatement (h : Abreast k n s s')
    (hread : Parse.expressionStatement cStructs s = some s₁)
    (hread' : Parse.expressionStatement cStructs s' = some s₁')
    (hquiet : Quiet k s s' s₁) (hclean : s₁.Clean) : Abreast k n s₁ s₁' := by
  obtain ⟨⟨top, s₂⟩, h₂, rfl⟩ := Option.map_eq_some_iff.1 hread
  obtain ⟨⟨top', s₂'⟩, h₂', rfl⟩ := Option.map_eq_some_iff.1 hread'
  dsimp only at hquiet hclean ⊢
  cases hexpression : (s₂.symbol top).isExpression with
  | false =>
    rw [hexpression, if_neg Bool.false_ne_true] at hclean
    exact absurd hclean (not_clean_report s₂ top _)
  | true =>
    rw [hexpression, if_pos rfl] at hquiet hclean
    obtain ⟨hoperand, rfl, rfl, -, -, htoken⟩ := h.expression hget h₂ h₂' hquiet hclean
    have hkind := (hoperand.similar s.token (Nat.lt_trans htoken hoperand.spare.lt)).kind
    have hexpression' : (s₂'.symbol (moved k s.token)).isExpression = true := by
      rw [Symbol.isExpression, hkind]
      exact hexpression
    rw [if_pos rfl, if_pos hexpression']
    exact hoperand

/-- The keyword of a statement is passed in both readings. -/
theorem enter (h : Abreast k n s s') {std : StatementDenotation}
    (hstd : s.current.role.std = some std) (hopen : s.atClose = false)
    (hquiet : Quiet k s s' (s.enterStatement cStructs))
    (hclean : (s.enterStatement cStructs).Clean) :
    Abreast k n (s.enterStatement cStructs) (s'.enterStatement cStructs) := by
  have hid : s.check endId = false := (Bool.or_eq_false_iff.1 hopen).2
  have hcleanNext : (s.advance cStructs).Clean :=
    ((grows_reserve _ _).trans (grows_modifySymbol _ _ _)).clean hclean
  refine h.enterStatement hget (ne_structKeyword hget) hstd hid (hquiet.stay h.phase ?_) hclean
  rw [State.enterStatement, State.modifySymbol, Array.size_modify, (Aside.reserve _ _).size,
    (h.sensible.advance (h.endSymbol?_eq_none hid) hcleanNext).2]
  exact Nat.lt_succ_self _

/-! ## Structs -/

omit hget in
theorem tag?_eq (h : Abreast k n s s') : s'.tag? = s.tag?.map (moved k) := by
  rw [State.tag?, State.tag?, h.current_similar.kind, h.token]
  split <;> rfl

/-- The tag of a struct is passed in both readings. -/
theorem passTag (h : Abreast k n s s') (hquiet : Quiet k s s' (s.passTag cStructs))
    (hclean : (s.passTag cStructs).Clean) :
    Abreast k n (s.passTag cStructs) (s'.passTag cStructs) ∧
      ∀ tag ∈ s.tag?, Spare k (s.passTag cStructs) (s'.passTag cStructs) tag ∧
        tag < (s.passTag cStructs).token ∧ ((s.passTag cStructs).symbol tag).kind = .name := by
  unfold State.passTag at hquiet hclean ⊢
  rw [h.tag?_eq, Option.isSome_map]
  unfold State.tag? at hquiet hclean ⊢
  by_cases hname : s.current.kind = .name
  · rw [if_pos hname] at hquiet hclean ⊢
    rw [Option.isSome_some, if_pos rfl] at hquiet hclean ⊢
    have hend := h.not_end_of_name hname
    refine ⟨h.toTracks.next hget hend hquiet hclean, ?_⟩
    rintro _ ⟨⟩
    refine ⟨h.spare.advance h.phase, h.token_lt_advance hend, ?_⟩
    rw [symbol_advance h.spare.lt]
    exact hname
  · rw [if_neg hname, Option.isSome_none, if_neg Bool.false_ne_true, if_neg Bool.false_ne_true]
    exact ⟨h, nofun⟩

omit hget in
/-- The tag of a struct is declared in both readings. -/
theorem defineTag (h : Abreast k n s s')
    (htag : ∀ tag ∈ tag?, Spare k s s' tag ∧ tag < s.token ∧ (s.symbol tag).kind = .name)
    (hroot : s.scope = 0 → s.AtRoot keyword)
    (hclean : (tag?.elim s fun tag => s.define tag keyword).Clean) :
    Abreast k n (tag?.elim s fun tag => s.define tag keyword)
        ((tag?.map (moved k)).elim s' fun tag => s'.define tag (moved k keyword)) ∧
      ∀ tag ∈ tag?, Held k n (tag?.elim s fun tag => s.define tag keyword)
          ((tag?.map (moved k)).elim s' fun tag => s'.define tag (moved k keyword)) tag ∧
        tag < (tag?.elim s fun tag => s.define tag keyword).token := by
  cases tag? with
  | none => exact ⟨h, nofun⟩
  | some tag =>
    obtain ⟨hspare, hlt, hkind⟩ := htag tag rfl
    have hne : s.token ≠ tag := Nat.ne_of_gt hlt
    refine ⟨h.aside (h.toTracks.define hspare hkind hroot hclean) (.define s tag keyword)
      (.define s' (moved k tag) (moved k keyword)) hne (moved_ne hne), ?_⟩
    rintro _ ⟨⟩
    refine ⟨h.toTracks.held_define hspare hroot hclean, ?_⟩
    rw [Option.elim_some, token_define]
    exact hlt

/-- The keyword and the tag of a struct are passed in both readings. -/
theorem passHead (h : Abreast k n s s') (hstd : s.current.role.std = some .struct)
    (hopen : s.atClose = false) (hquiet : Quiet k s s' (s.passHead cStructs))
    (hclean : (s.passHead cStructs).Clean) :
    Abreast k n (s.passHead cStructs) (s'.passHead cStructs) ∧
      (s'.enterStatement cStructs).tag? = (s.enterStatement cStructs).tag?.map (moved k) ∧
      ∀ tag ∈ (s.enterStatement cStructs).tag?,
        Spare k (s.passHead cStructs) (s'.passHead cStructs) tag ∧
          tag < (s.passHead cStructs).token ∧ ((s.passHead cStructs).symbol tag).kind = .name := by
  have hcleanEnter := (grows_passTag cStructs _).clean hclean
  have henter := h.enter hget hstd hopen
    (hquiet.first (trace_passTag cStructs (s.enterStatement cStructs)).spares.size_le) hcleanEnter
  obtain ⟨hpass, htag⟩ := henter.passTag hget
    (hquiet.rest h.phase henter.phase (Trace.of_enterStatement cStructs s').spares.size_le) hclean
  exact ⟨hpass, henter.tag?_eq, htag⟩

/-- A forward declaration is read in both readings. -/
theorem forward (h : Abreast k n s s')
    (htag : ∀ tag ∈ tag?, Spare k s s' tag ∧ tag < s.token ∧ (s.symbol tag).kind = .name)
    (hroot : s.scope = 0 → s.AtRoot keyword) (hcheck : s.check ";" = true)
    (hquiet : Quiet k s s' (forwardDeclaration keyword tag? (s.advance cStructs)).2)
    (hclean : (forwardDeclaration keyword tag? (s.advance cStructs)).2.Clean) :
    Abreast k n (forwardDeclaration keyword tag? (s.advance cStructs)).2
      (forwardDeclaration (moved k keyword) (tag?.map (moved k)) (s'.advance cStructs)).2 := by
  cases tag? with
  | none => exact absurd hclean (not_clean_report _ _ _)
  | some tag =>
    obtain ⟨hspare, hlt, hkind⟩ := htag tag rfl
    have hend := h.not_end_of_check hcheck (by decide)
    have htrace : Trace cStructs (s.advance cStructs)
      (forwardDeclaration keyword (some tag) (s.advance cStructs)).2 := .of_forwardDeclaration _
    have hnext := h.toTracks.next hget hend (hquiet.first htrace.spares.size_le)
      ((grows_forwardDeclaration _).clean hclean)
    have hne : (s.advance cStructs).token ≠ tag :=
      Nat.ne_of_gt (Nat.lt_trans hlt (h.token_lt_advance hend))
    refine hnext.aside (hnext.toTracks.forwardDeclaration hget (hspare.advance h.phase) ?_ ?_ hclean)
      (.forwardDeclaration _ _ _) (.forwardDeclaration _ _ _) hne (moved_ne hne)
    · rw [symbol_advance hspare.lt]
      exact hkind
    · intro hscope
      rw [scope_advance.1] at hscope
      exact (hroot hscope).of_trace (.advance (t := cStructs) s)

/-- The opening brace of a struct is passed in both readings, and its tag holds its place. -/
theorem openBrace (h : Abreast k n s s')
    (htag : ∀ tag ∈ tag?, Spare k s s' tag ∧ tag < s.token ∧ (s.symbol tag).kind = .name)
    (hroot : s.scope = 0 → s.AtRoot keyword)
    (hquiet : Quiet k s s' ((tag?.elim s fun tag => s.define tag keyword).expect cStructs
      SymbolTable.openBrace))
    (hclean : ((tag?.elim s fun tag => s.define tag keyword).expect cStructs
      SymbolTable.openBrace).Clean) :
    ∃ o o', (tag?.elim s fun tag => s.define tag keyword).expect cStructs SymbolTable.openBrace = o ∧
      ((tag?.map (moved k)).elim s' fun tag => s'.define tag (moved k keyword)).expect cStructs
        SymbolTable.openBrace = o' ∧
      Abreast k n o o' ∧ Trace cStructs s o ∧ Trace cStructs s' o' ∧
        ∀ tag ∈ tag?, Held k n o o' tag ∧ tag < o.token := by
  have htrace := Trace.of_define? (t := cStructs) s keyword tag?
  have htrace' := Trace.of_define? (t := cStructs) s' (moved k keyword) (tag?.map (moved k))
  obtain ⟨hdefine, hheld⟩ := h.defineTag htag hroot ((grows_expect _ _ _).clean hclean)
  obtain ⟨hbrace, hlt⟩ := hdefine.expect hget (by decide)
    (hquiet.rest h.phase hdefine.phase htrace'.spares.size_le) hclean
  refine ⟨_, _, rfl, rfl, hbrace, htrace.trans (.expect _ _), htrace'.trans (.expect _ _),
    fun tag hmem => ?_⟩
  obtain ⟨hheldTag, hltTag⟩ := hheld tag hmem
  exact ⟨hheldTag.expect SymbolTable.openBrace, Nat.lt_trans hltTag hlt⟩

omit hget in
theorem size_le_endName (s : State) (keyword : SymbolId) (tag? : Option SymbolId) (body : ScopeId) :
    s.symbols.size ≤ (s.endName cStructs keyword tag? body).symbols.size := by
  rw [← (Aside.closeScope (P := fun _ => False) s).size]
  exact (trace_endName cStructs s keyword tag? body).spares.size_le

/-- The body of a struct is read in both readings, and its tag still holds its place. -/
theorem passBody (h : Abreast k n s s')
    (hbody : BodiesAbreast k n fuel fuel')
    (htag : ∀ tag ∈ tag?, Spare k s s' tag ∧ tag < s.token ∧ (s.symbol tag).kind = .name)
    (hroot : s.scope = 0 → s.AtRoot keyword)
    (hread : bodyReader cStructs fuel (s.enterBody cStructs keyword tag?) = some s₁)
    (hread' : bodyReader cStructs fuel'
      (s'.enterBody cStructs (moved k keyword) (tag?.map (moved k))) = some s₁')
    (hquiet : Quiet k s s' s₁) (hclean : s₁.Clean) :
    Abreast k n s₁ s₁' ∧
      (∀ tag ∈ tag?, Held k n s₁ s₁' tag ∧ tag < s₁.token) ∧
      (s.scope = 0 → s₁.AtRoot keyword) ∧ s'.symbols.size ≤ s₁'.symbols.size ∧
      ∃ outer, s₁.outer = s.scope :: outer ∧ s.scope < s₁.scopes.size := by
  have htraceBody := Trace.of_bodyReader hread
  have htraceBody' := Trace.of_bodyReader hread'
  unfold State.enterBody at hread hread' htraceBody htraceBody'
  obtain ⟨o, o', hopen, hopen', hbrace, htrace, htrace', hheld⟩ :=
    h.openBrace hget htag hroot (hquiet.first htraceBody.spares.size_le)
      (((grows_openScope _).trans (grows_bodyReader hread)).clean hclean)
  rw [hopen] at hread htraceBody
  rw [hopen'] at hread' htraceBody'
  have hpos : 0 < o.scopes.size := Nat.zero_lt_of_lt hbrace.scope_lt
  have hinside := hbody _ _ _ _ (Nat.ne_of_gt hpos) hbrace.openScope hread hread'
    (hquiet.rest h.phase hbrace.openScope.phase htrace'.spares.size_le) hclean
  have hscope : o.scope = s.scope := htrace.within.scope
  have hlt : o.scope < s₁.scopes.size := by
    refine Nat.lt_of_lt_of_le hbrace.scope_lt (Nat.le_trans ?_ htraceBody.within.scopes_le)
    rw [State.openScope, Array.size_push]
    exact Nat.le_succ _
  -- the body leaves the outermost scope alone, so the tag still stands for the same there
  have hscopeRoot {o s₁ : State} (hpos : 0 < o.scopes.size) (hwithin : o.openScope.Within s₁) :
      s₁.scopeAt 0 = o.scopeAt 0 := hwithin.scopeAt_block hpos
  refine ⟨hinside, fun tag hmem => ?_, fun hzero => ?_,
    Nat.le_trans htrace'.spares.size_le htraceBody'.spares.size_le, o.outer, ?_, hscope ▸ hlt⟩
  · obtain ⟨hheldTag, hltTag⟩ := hheld tag hmem
    exact ⟨hheldTag.of_scopeAt (hscopeRoot hpos htraceBody.within)
      (hscopeRoot (hbrace.scopes ▸ hpos) htraceBody'.within),
      hbrace.lt_token hltTag hinside htraceBody.spares.size_le⟩
  · exact (((hroot hzero).of_trace htrace).openScope hpos).of_trace htraceBody
  · rw [← hscope]
    exact htraceBody.within.outer

/-- A struct with a body is read in both readings, up to the semicolon. -/
theorem definitionName (h : Abreast k n s s')
    (hbody : BodiesAbreast k n fuel fuel')
    (htag : ∀ tag ∈ tag?, Spare k s s' tag ∧ tag < s.token ∧ (s.symbol tag).kind = .name)
    (hroot : s.scope = 0 → s.AtRoot keyword)
    (hread : bodyReader cStructs fuel (s.enterBody cStructs keyword tag?) = some s₁)
    (hread' : bodyReader cStructs fuel'
      (s'.enterBody cStructs (moved k keyword) (tag?.map (moved k))) = some s₁')
    (hno : s.scope = 0 → NoAlias n (Parse.structEnd cStructs keyword tag? body s₁).2)
    (hquiet : Quiet k s s' (s₁.endName cStructs keyword tag? body))
    (hclean : (Parse.structEnd cStructs keyword tag? body s₁).2.Clean) :
    Abreast k n (s₁.endName cStructs keyword tag? body)
        (s₁'.endName cStructs (moved k keyword) (tag?.map (moved k)) body) ∧
      (Parse.structEnd cStructs (moved k keyword) (tag?.map (moved k)) body s₁').2 =
        (s₁'.endName cStructs (moved k keyword) (tag?.map (moved k)) body).advance cStructs ∧
      s'.symbols.size ≤
        (s₁'.endName cStructs (moved k keyword) (tag?.map (moved k)) body).symbols.size := by
  -- each part is clean, and what was put in is in none of them
  have hcleanBody := (grows_structEnd _ _ _ _ _).clean hclean
  have hquietBody := hquiet.first (size_le_endName s₁ keyword tag? body)
  obtain ⟨hinside, hheld, hatRoot, hsize, outer, houter, hlt⟩ :=
    h.passBody hget hbody htag hroot hread hread' hquietBody hcleanBody
  obtain ⟨hname, heq⟩ := hinside.endName hget houter hlt hheld
    (fun hzero => ⟨hatRoot hzero, hno hzero⟩) (hquiet.rest h.phase hinside.phase hsize) hclean
  exact ⟨hname, heq, Nat.le_trans hsize (size_le_endName s₁' _ _ body)⟩

/-- A struct with a body is read in both readings. -/
theorem definition (h : Abreast k n s s')
    (hbody : BodiesAbreast k n fuel fuel')
    (htag : ∀ tag ∈ tag?, Spare k s s' tag ∧ tag < s.token ∧ (s.symbol tag).kind = .name)
    (hroot : s.scope = 0 → s.AtRoot keyword)
    (hread : bodyReader cStructs fuel (s.enterBody cStructs keyword tag?) = some s₁)
    (hread' : bodyReader cStructs fuel'
      (s'.enterBody cStructs (moved k keyword) (tag?.map (moved k))) = some s₁')
    (hno : s.scope = 0 → NoAlias n (Parse.structEnd cStructs keyword tag? body s₁).2)
    (hquiet : Quiet k s s' (Parse.structEnd cStructs keyword tag? body s₁).2)
    (hclean : (Parse.structEnd cStructs keyword tag? body s₁).2.Clean) :
    Abreast k n (Parse.structEnd cStructs keyword tag? body s₁).2
      (Parse.structEnd cStructs (moved k keyword) (tag?.map (moved k)) body s₁').2 := by
  obtain ⟨-, hcheck, heq⟩ := structEnd_of_clean hclean
  have hquietName : Quiet k s s' (s₁.endName cStructs keyword tag? body) := by
    rw [heq] at hquiet
    exact hquiet.first size_le_advance
  obtain ⟨hname, heq', hle'⟩ :=
    h.definitionName hget hbody htag hroot hread hread' hno hquietName hclean
  rw [heq] at hquiet hclean
  rw [heq, heq']
  exact hname.toTracks.next hget (hname.not_end_of_check hcheck (by decide))
    (hquiet.rest h.phase hname.phase hle') hclean

omit hget in
theorem std_eq (h : Abreast k n s s') : s'.current.role.std = s.current.role.std := by
  rw [h.current_similar.role]

omit hget in
theorem atRoot_passHead (h : Abreast k n s s') (hstd : s.current.role.std = some .struct)
    (hscope : s.scope = 0) : (s.passHead cStructs).AtRoot s.token :=
  (h.atRoot hstd hscope).of_trace (trace_passTag cStructs (s.enterStatement cStructs))

/-- A forward declaration is one in both readings. -/
theorem structAhead (h : Abreast k n s s') (hstd : s.current.role.std = some .struct)
    (hopen : s.atClose = false) (hcheck : (s.passHead cStructs).check ";" = true)
    (hread : Parse.statement cStructs (bodyReader cStructs fuel) s = some (name?, s₁))
    (hread' : Parse.statement cStructs (bodyReader cStructs fuel') s' = some (name?', s₁'))
    (hquiet : Quiet k s s' s₁) (hclean : s₁.Clean) : Abreast k n s₁ s₁' := by
  obtain ⟨-, hs₁⟩ := (struct_cases hstd hread).resolve_right fun hother =>
    Bool.noConfusion (hcheck.symm.trans hother.1)
  have hgrows : (s.passHead cStructs).Grows s₁ := by
    rw [hs₁]
    exact (grows_advance cStructs _).trans (grows_forwardDeclaration _)
  have htrace : Trace cStructs (s.passHead cStructs) s₁ := by
    rw [hs₁]
    exact (Trace.advance _).trans (.of_forwardDeclaration _)
  obtain ⟨hpass, htag?, htag⟩ := h.passHead hget hstd hopen
    (hquiet.first htrace.spares.size_le) (hgrows.clean hclean)
  obtain ⟨-, hs₁'⟩ := (struct_cases (h.std_eq.trans hstd) hread').resolve_right fun hother =>
    Bool.noConfusion (((hpass.check ";").trans hcheck).symm.trans hother.1)
  have hquietPass := hquiet.rest h.phase hpass.phase (trace_passHead cStructs s').spares.size_le
  have hscope : (s.passHead cStructs).scope = s.scope := (trace_passHead cStructs s).within.scope
  rw [hs₁] at hclean hquietPass
  rw [hs₁, hs₁', h.token, htag?]
  exact hpass.forward hget htag (fun hzero => h.atRoot_passHead hstd (hscope.symm.trans hzero)) hcheck
    hquietPass hclean

/-- A struct with a body has one in both readings. -/
theorem structDefinition (h : Abreast k n s s') (hbody : BodiesAbreast k n fuel fuel')
    (hstd : s.current.role.std = some .struct) (hopen : s.atClose = false)
    (hcheck : (s.passHead cStructs).check ";" = false)
    (hread : Parse.statement cStructs (bodyReader cStructs fuel) s = some (name?, s₁))
    (hread' : Parse.statement cStructs (bodyReader cStructs fuel') s' = some (name?', s₁'))
    (hno : s.scope = 0 → NoAlias n s₁) (hquiet : Quiet k s s' s₁) (hclean : s₁.Clean) :
    Abreast k n s₁ s₁' := by
  obtain ⟨-, s₂, h₂, hs₁⟩ := (struct_cases hstd hread).resolve_left fun hother =>
    Bool.noConfusion (hcheck.symm.trans hother.1)
  have hgrows : (s.passHead cStructs).Grows s₁ := by
    rw [hs₁]
    exact ((grows_enterBody _ _ _ _).trans (grows_bodyReader h₂)).trans (grows_structEnd _ _ _ _ _)
  have htrace : Trace cStructs (s.passHead cStructs) s₁ := by
    rw [hs₁]
    exact trace_definition _ h₂
  obtain ⟨hpass, htag?, htag⟩ := h.passHead hget hstd hopen
    (hquiet.first htrace.spares.size_le) (hgrows.clean hclean)
  obtain ⟨-, s₂', h₂', hs₁'⟩ := (struct_cases (h.std_eq.trans hstd) hread').resolve_left
    fun hother => Bool.noConfusion (((hpass.check ";").trans hcheck).symm.trans hother.1)
  have hquietPass := hquiet.rest h.phase hpass.phase (trace_passHead cStructs s').spares.size_le
  have hscope : (s.passHead cStructs).scope = s.scope := (trace_passHead cStructs s).within.scope
  rw [htag?, h.token] at h₂'
  rw [hs₁] at hclean hquietPass hno
  rw [hs₁, hs₁', htag?, h.token, hpass.scopes]
  exact hpass.definition hget hbody htag
    (fun hzero => h.atRoot_passHead hstd (hscope.symm.trans hzero)) h₂ h₂'
    (fun hzero => hno (hscope.symm.trans hzero)) hquietPass hclean

/-- A struct is read in both readings. -/
theorem struct (h : Abreast k n s s')
    (hbody : BodiesAbreast k n fuel fuel')
    (hstd : s.current.role.std = some .struct) (hopen : s.atClose = false)
    (hread : Parse.statement cStructs (bodyReader cStructs fuel) s = some (name?, s₁))
    (hread' : Parse.statement cStructs (bodyReader cStructs fuel') s' = some (name?', s₁'))
    (hno : s.scope = 0 → NoAlias n s₁) (hquiet : Quiet k s s' s₁) (hclean : s₁.Clean) :
    Abreast k n s₁ s₁' := by
  cases hcheck : (s.passHead cStructs).check ";" with
  | true => exact h.structAhead hget hstd hopen hcheck hread hread' hquiet hclean
  | false => exact h.structDefinition hget hbody hstd hopen hcheck hread hread' hno hquiet hclean

/-! ## Statements -/

/-- A statement is read in both readings. -/
theorem statement (h : Abreast k n s s')
    (hbody : BodiesAbreast k n fuel fuel')
    (hopen : s.atClose = false)
    (hread : Parse.statement cStructs (bodyReader cStructs fuel) s = some (name?, s₁))
    (hread' : Parse.statement cStructs (bodyReader cStructs fuel') s' = some (name?', s₁'))
    (hno : s.scope = 0 → NoAlias n s₁) (hquiet : Quiet k s s' s₁) (hclean : s₁.Clean) :
    Abreast k n s₁ s₁' := by
  have hrole := h.current_similar.role
  cases hstd : s.current.role.std with
  | none =>
    rw [Parse.statement, hstd] at hread
    rw [Parse.statement, hrole, hstd] at hread'
    obtain ⟨s₂, h₂, h₃⟩ := Option.map_eq_some_iff.1 hread
    obtain ⟨s₂', h₂', h₃'⟩ := Option.map_eq_some_iff.1 hread'
    cases h₃
    cases h₃'
    exact h.expressionStatement hget h₂ h₂' hquiet hclean
  | some std =>
    cases std with
    | struct => exact h.struct hget hbody hstd hopen hread hread' hno hquiet hclean
    | member =>
      rw [Parse.statement, hstd] at hread
      rw [Parse.statement, hrole, hstd] at hread'
      obtain ⟨s₂, h₂, h₃⟩ := Option.map_eq_some_iff.1 hread
      obtain ⟨s₂', h₂', h₃'⟩ := Option.map_eq_some_iff.1 hread'
      cases h₃
      cases h₃'
      have henter := h.enter hget hstd hopen
        (hquiet.first (Trace.of_members h₂).spares.size_le) ((grows_members h₂).clean hclean)
      rw [h.token] at h₂'
      exact henter.members hget h₂ h₂'
        (hquiet.rest h.phase henter.phase (Trace.of_enterStatement cStructs s').spares.size_le)
        hclean

/-- The statements that are left are read in both readings. -/
theorem statements (h : Abreast k n s s') {names names' : List SymbolId}
    (hread : Parse.statements cStructs fuel s = some (names, s₁))
    (hread' : Parse.statements cStructs fuel' s' = some (names', s₁'))
    (hno : s.scope = 0 → s.Poised cStructs ∧ NoAlias n s₁) (hquiet : Quiet k s s' s₁)
    (hclean : s₁.Clean) : Abreast k n s₁ s₁' := by
  -- on the fuel of the first reading, which bodies and later statements have less of
  induction fuel using Nat.strongRecOn generalizing s s' s₁ s₁' fuel' names names' with
  | ind fuel ih =>
    rcases statements_cases hread with
      ⟨hclose, -, rfl⟩ | ⟨hopen, rest, name?, s₂, others, rfl, -, hfirst, hrest⟩
    · rcases statements_cases hread' with ⟨-, -, rfl⟩ | ⟨hopen', -⟩
      · exact h
      · rw [h.atClose, hclose] at hopen'
        cases hopen'
    · rcases statements_cases hread' with
        ⟨hclose', -⟩ | ⟨-, rest', name?', s₂', others', rfl, -, hfirst', hrest'⟩
      · rw [h.atClose, hopen] at hclose'
        cases hclose'
      have hbody : BodiesAbreast k n rest rest' := by
        intro s s' s₁ s₁' hscope h hread hread' hquiet hclean
        obtain ⟨names, h₂⟩ := bodyReader_cases hread
        obtain ⟨names', h₂'⟩ := bodyReader_cases hread'
        exact ih rest (Nat.lt_succ_self rest) h h₂ h₂' (fun hzero => absurd hzero hscope)
          hquiet hclean
      have htrace : Trace cStructs s s₂ := .of_statement (fun _ _ => Trace.of_bodyReader) hfirst
      have htrace' : Trace cStructs s' s₂' := .of_statement (fun _ _ => Trace.of_bodyReader) hfirst'
      have hscope₂ := htrace.within.scope
      have hno₂ (hscope : s.scope = 0) : s₂.Poised cStructs ∧ NoAlias n s₂ := by
        obtain ⟨hpoised, hno⟩ := hno hscope
        have hend := h.endSymbol?_eq_none (Bool.or_eq_false_iff.1 hopen).2
        have hpoised₂ := ((course_statement stops_cStructs hpoised hend
          (fun _ _ => course_bodyReader stops_cStructs) hfirst).proceeds stops_cStructs hpoised).poised
        refine ⟨hpoised₂, hno.of_run ((course_statements stops_cStructs hpoised₂ hrest).run
          stops_cStructs hpoised₂) hpoised₂ ?_⟩
        rw [hscope₂]
        exact Nat.lt_of_lt_of_le h.scope_lt htrace.within.scopes_le
      have hmiddle := h.statement hget hbody hopen hfirst hfirst' (fun hscope => (hno₂ hscope).2)
        (hquiet.first (Trace.of_statements hrest).spares.size_le)
        ((grows_statements hrest).clean hclean)
      refine ih rest (Nat.lt_succ_self rest) hmiddle hrest hrest' (fun hscope => ?_)
        (hquiet.rest h.phase hmiddle.phase htrace'.spares.size_le) hclean
      rw [hscope₂] at hscope
      exact ⟨(hno₂ hscope).1, (hno hscope).2⟩

/-- The statements of a body are read in both readings. -/
theorem bodyReader (h : Abreast k n s s') (hscope : s.scope ≠ 0)
    (hread : Parse.bodyReader cStructs fuel s = some s₁)
    (hread' : Parse.bodyReader cStructs fuel' s' = some s₁') (hquiet : Quiet k s s' s₁)
    (hclean : s₁.Clean) : Abreast k n s₁ s₁' := by
  obtain ⟨⟨names, s₂⟩, h₂, rfl⟩ := Option.map_eq_some_iff.1 hread
  obtain ⟨⟨names', s₂'⟩, h₂', rfl⟩ := Option.map_eq_some_iff.1 hread'
  exact h.statements hget h₂ h₂' (fun hzero => absurd hzero hscope) hquiet hclean

end Reading

end Abreast

end State

end CStruct.Parse
