import CStruct.Proofs.Scopes.Flawless

/-!
# The bodies that names stand in

On a passage the scopes that are open are those of the bodies around the token, from the inside
outwards. A name is read before the token in front of it is dealt with, so the one right behind an
opening brace still goes to the scope around the body.
-/

namespace CStruct.Parse

open SymbolTable State

variable {text : Nat → String} {s s' s₁ s₂ : State} {id : SymbolId} {k : ScopeId}

namespace State

/-! ## Where the token is -/

/-- How the symbols that have been read are spelled. -/
def SpelledAs (text : Nat → String) (s : State) : Prop :=
  ∀ id, id < s.symbols.size → (s.symbol id).value = text id

/-- Names have the scopes of their places. -/
def Housed (text : Nat → String) (s : State) : Prop :=
  ∀ id k, (s.symbol id).scope? = some k → k = enclosingScope text (seat text id)

/-- The scopes of the bodies around the token are open, and all bodies before it have one. -/
structure Sited (text : Nat → String) (s : State) : Prop where
  stack : s.scope :: s.outer = (openBraces text s.token).map (bodyScope text) ++ [0]
  count : s.scopes.size = opened text s.token + 1
  housed : s.Housed text

theorem SpelledAs.of_trace (h : s'.SpelledAs text) (htrace : Trace cStructs s s') :
    s.SpelledAs text := by
  intro id hid
  rw [← htrace.value hid]
  exact h id (Nat.lt_of_lt_of_le hid htrace.spares.size_le)

theorem SpelledAs.token (h : s.SpelledAs text) (hs : s.Latest) : text s.token = s.current.value :=
  (h s.token hs.token_lt).symm

namespace Sited

theorem of_eq (h : s.Sited text) (scope : s'.scope = s.scope) (outer : s'.outer = s.outer)
    (token : s'.token = s.token) (scopes : s'.scopes.size = s.scopes.size)
    (housed : s'.Housed text) : s'.Sited text := by
  refine ⟨?_, ?_, housed⟩
  · rw [scope, outer, token]
    exact h.stack
  · rw [scopes, token]
    exact h.count

/-- The scope that is open is that of the innermost body. -/
theorem scope_eq (h : s.Sited text) : s.scope = enclosingScope text s.token := by
  have hstack := h.stack
  unfold enclosingScope
  cases hopen : openBraces text s.token with
  | nil =>
    rw [hopen] at hstack
    exact (List.cons.inj hstack).1
  | cons b bs =>
    rw [hopen] at hstack
    exact (List.cons.inj hstack).1

end Sited

/-- The next symbol gets the scope that is open. -/
theorem scope?_advance (h : ((s.advance cStructs).symbol id).scope? = some k) :
    (s.symbol id).scope? = some k ∨ k = s.scope := by
  rcases symbol_advance_cases cStructs s id with hid | hid | ⟨l, hid⟩ | hid
  · rw [hid] at h
    exact .inl h
  · rw [hid] at h
    cases h
  · rw [hid] at h
    have hread : (if l.kind = .name then some s.scope else none) = some k := h
    split at hread
    · exact .inr (Option.some.inj hread).symm
    · cases hread
  · -- the table gives the end no scope
    rw [hid] at h
    change (cStructs.entry endId).scope? = some k at h
    rw [IsRegular.cStructs endId] at h
    cases h

theorem Housed.advance (h : s.Housed text) (hs : s.Legible) (he : s.endSymbol? = none)
    (hscope : s.scope = enclosingScope text (seat text (s.token + 1))) :
    (s.advance cStructs).Housed text := by
  intro id k hk
  by_cases hid : id < s.symbols.size
  · rw [symbol_advance hid] at hk
    exact h id k hk
  · have hlt : id < (s.advance cStructs).symbols.size := by
      by_contra hle
      rw [symbol_of_size_le (Nat.le_of_not_lt hle)] at hk
      cases hk
    rw [hs.advance.size, hs.token_next he, ← hs.size] at hlt
    -- only one symbol is new
    have hlast : id = s.token + 1 := by
      rw [← hs.size]
      exact Nat.le_antisymm (Nat.le_of_lt_succ hlt) (Nat.le_of_not_lt hid)
    rcases scope?_advance hk with hold | hnew
    · rw [symbol_of_size_le (Nat.le_of_not_lt hid)] at hold
      cases hold
    · rw [hnew, hscope, hlast]

/-! ## Passing a symbol -/

variable (hs : s.Legible) (hspelled : s.SpelledAs text)
include hs hspelled

theorem Sited.pass (h : s.Sited text) (hother : ¬IsBrace s.current.value) :
    (s.advance cStructs).Sited text ∧
      openBraces text (s.advance cStructs).token = openBraces text s.token := by
  cases he : s.endSymbol? with
  | none =>
    have htext : ¬IsBrace (text s.token) := by
      rw [hspelled.token hs.toLatest]
      exact hother
    have hopen := openBraces_other htext
    have hseat := seat_other fun heq => htext (.inl heq)
    rw [hs.token_next he]
    refine ⟨⟨?_, ?_, ?_⟩, hopen⟩
    · rw [scope_advance.1, scope_advance.2, hs.token_next he, hopen]
      exact h.stack
    · rw [scopes_advance, hs.token_next he, opened_other fun heq => htext (.inl heq)]
      exact h.count
    · apply h.housed.advance hs he
      rw [hseat, enclosingScope, hopen]
      exact h.scope_eq
  | some e =>
    rw [hs.advance_eq_self cStructs he]
    exact ⟨h, rfl⟩

/-- Behind an opening brace a body is open, whose number is the next one. -/
theorem Sited.enter (h : s.Sited text) (hopen : s.current.value = openBrace) :
    (s.advance cStructs).openScope.Sited text ∧
      openBraces text (s.advance cStructs).token = s.token :: openBraces text s.token ∧
      (s.advance cStructs).openScope.scope = bodyScope text s.token := by
  have he := hs.not_end (.inl hopen)
  have htext : text s.token = openBrace := (hspelled.token hs.toLatest).trans hopen
  have hstack := openBraces_open htext
  have hscope : (s.advance cStructs).openScope.scope = bodyScope text s.token := by
    change (s.advance cStructs).scopes.size = bodyScope text s.token
    rw [scopes_advance]
    exact h.count
  refine ⟨⟨?_, ?_, ?_⟩, ?_, hscope⟩
  · change (s.advance cStructs).openScope.scope :: (s.advance cStructs).scope ::
      (s.advance cStructs).outer = (openBraces text (s.advance cStructs).token).map _ ++ [0]
    rw [hscope, scope_advance.1, scope_advance.2, hs.token_next he, hstack, List.map_cons,
      List.cons_append, h.stack]
  · change ((s.advance cStructs).scopes.push _).size = opened text (s.advance cStructs).token + 1
    rw [Array.size_push, scopes_advance, hs.token_next he, opened_open htext, h.count]
  · have hhoused : (s.advance cStructs).Housed text := by
      apply h.housed.advance hs he
      rw [seat_open htext]
      exact h.scope_eq
    exact hhoused
  · rw [hs.token_next he, hstack]

/-- Behind a closing brace the innermost body is not open any more. -/
theorem Sited.leave (h : s.Sited text) (hclose : s.current.value = closeBrace) {b : Nat}
    {bs : List Nat} (hopen : openBraces text s.token = b :: bs) :
    (s.closeScope.advance cStructs).Sited text ∧
      openBraces text (s.closeScope.advance cStructs).token = bs ∧
      (s.closeScope.advance cStructs).token = s.token + 1 := by
  have hs' := hs.closeScope
  have htext : text s.token = closeBrace := (hspelled.token hs.toLatest).trans hclose
  have hne : text s.token ≠ openBrace := by
    rw [htext]
    decide
  have hbs : openBraces text (s.token + 1) = bs := by
    rw [openBraces_close htext, hopen, List.tail_cons]
  -- the scope around the body is there, as the body is open
  have hstack : s.outer = bs.map (bodyScope text) ++ [0] := by
    have hstack := h.stack
    rw [hopen, List.map_cons, List.cons_append] at hstack
    exact (List.cons.inj hstack).2
  have hclosed : s.closeScope.scope :: s.closeScope.outer = bs.map (bodyScope text) ++ [0] := by
    rw [← hstack]
    unfold State.closeScope
    split
    · rename_i hnil
      rw [hnil] at hstack
      simp at hstack
    · rename_i hcons
      exact hcons.symm
  have hscope : s.closeScope.scope = enclosingScope text (s.token + 1) := by
    unfold enclosingScope
    rw [hbs]
    cases bs with
    | nil => exact (List.cons.inj hclosed).1
    | cons b bs => exact (List.cons.inj hclosed).1
  obtain ⟨he, htoken⟩ := hs.token_close hclose
  have hscopes : s.closeScope.scopes = s.scopes := by
    obtain ⟨c, outer, heq⟩ := closeScope_eq_with s
    rw [heq]
  refine ⟨⟨?_, ?_, ?_⟩, ?_, htoken⟩
  · rw [scope_advance.1, scope_advance.2, htoken, hbs]
    exact hclosed
  · rw [scopes_advance, htoken, opened_other hne, hscopes]
    exact h.count
  · have hhoused : s.closeScope.Housed text := by
      intro id k hk
      rw [symbol_closeScope] at hk
      exact h.housed id k hk
    apply hhoused.advance hs' he
    rw [(symbols_closeScope s).2, seat_other hne]
    exact hscope
  · rw [htoken]
    exact hbs

end State

/-! ## Passages -/

namespace Passage

theorem housed_edit {f : Symbol → Symbol} (h : s.Housed text) (hf : ∀ x, (f x).scope? = x.scope?) :
    (s.modifySymbol id f).Housed text := by
  intro i k hk
  rw [symbol_modifySymbol] at hk
  split at hk
  · rw [hf] at hk
    exact h i k hk
  · exact h i k hk

theorem spelled_block {s₃ : State} (hbody : Passage (s₁.advance cStructs).openScope s₂)
    (hname : Passage (s₂.closeScope.advance cStructs) s₃) (hspelled : s₃.SpelledAs text) :
    s₁.SpelledAs text ∧ s₂.SpelledAs text := by
  have hclosed := hspelled.of_trace ((Trace.advance _).trans hname.trace)
  have hspelled₂ : s₂.SpelledAs text := by
    intro i hi
    rw [← symbol_closeScope]
    rw [← (symbols_closeScope s₂).1] at hi
    exact hclosed i hi
  have hinside := hspelled₂.of_trace hbody.trace
  have hspelled₁ : (s₁.advance cStructs).SpelledAs text := hinside
  exact ⟨hspelled₁.of_trace (.advance s₁), hspelled₂⟩

/-- A passage comes out of each body that it goes into, so that the same bodies are open. -/
theorem sited (h : Passage s s') (hs : s.Legible) (hspelled : s'.SpelledAs text)
    (hsited : s.Sited text) :
    s'.Sited text ∧ openBraces text s'.token = openBraces text s.token := by
  induction h with
  | refl => exact ⟨hsited, rfl⟩
  | advance h hother ih =>
    have hspelled' := hspelled.of_trace (.advance _)
    obtain ⟨hsited', hopen⟩ := ih hs hspelled' hsited
    obtain ⟨hsited'', hopen'⟩ := hsited'.pass (h.legible hs) hspelled' hother
    exact ⟨hsited'', hopen'.trans hopen⟩
  | report _ ds ih =>
    obtain ⟨hsited', hopen⟩ := ih hs hspelled hsited
    exact ⟨hsited'.of_eq rfl rfl rfl rfl hsited'.housed, hopen⟩
  | edit _ id hf _ _ ih =>
    obtain ⟨hsited', hopen⟩ := ih hs (hspelled.of_trace (.of_move (.edit _ id hf))) hsited
    exact ⟨hsited'.of_eq rfl rfl rfl rfl (housed_edit hsited'.housed hf.scope?), hopen⟩
  | declare _ type _ hscope _ ih =>
    obtain ⟨hsited', hopen⟩ := ih hs (hspelled.of_trace (.of_move (.declare _ _ type))) hsited
    refine ⟨hsited'.of_eq rfl rfl rfl rfl ?_, hopen⟩
    intro i k hk
    rw [State.declare, symbol_modifySymbol] at hk
    split at hk
    · -- the name was read in the scope that it is declared in
      rename_i hi
      apply hsited'.housed i k
      rw [hi.1, hscope]
      exact hk
    · exact hsited'.housed i k hk
  | bind _ _ _ ih =>
    obtain ⟨hsited', hopen⟩ := ih hs hspelled hsited
    exact ⟨hsited'.of_eq rfl rfl rfl Array.size_modify hsited'.housed, hopen⟩
  | @block s s₁ s₂ s₃ owner h hopen hbody hclose hname _ _ _ _ ih ihbody ihname =>
    have hs₁ := h.legible hs
    have hs₂ := hbody.legible hs₁.advance.openScope
    have hspelled₃ := hspelled.of_trace (.setBody s₃ owner _)
    obtain ⟨hspelled₁, hspelled₂⟩ := spelled_block hbody hname hspelled₃
    -- one body is put on the stack, comes out of its own passage as it was, and is taken off
    obtain ⟨hsited₁, hopen₁⟩ := ih hs hspelled₁ hsited
    obtain ⟨hinside, hstack, -⟩ := hsited₁.enter hs₁ hspelled₁ hopen
    obtain ⟨hsited₂, hopen₂⟩ := ihbody hs₁.advance.openScope hspelled₂ hinside
    obtain ⟨hbehind, hopen₃, -⟩ := hsited₂.leave hs₂ hspelled₂ hclose (hopen₂.trans hstack)
    obtain ⟨hsited₃, hopen₄⟩ := ihname hs₂.closeScope.advance hspelled₃ hbehind
    exact ⟨hsited₃.of_eq rfl rfl rfl rfl (housed_edit hsited₃.housed fun _ => rfl),
      (hopen₄.trans hopen₃).trans hopen₁⟩

end Passage

/-! ## The names of bodies -/

/-- The bodies that end before `n` are known under their names. -/
def State.Owned (text : Nat → String) (n : Nat) (s : State) : Prop :=
  ∀ b c, c < n → Closes text b c →
    ∃ d, NamesBody s.symbol b c d ∧ (s.symbol d).innerScope? = some (bodyScope text b)

namespace State.Owned

variable {n : Nat}

theorem succ (h : s.Owned text n) (hother : text n ≠ closeBrace) : s.Owned text (n + 1) := by
  intro b c hc hcloses
  have hne : c ≠ n := by
    rintro rfl
    exact hother hcloses.1
  exact h b c (by omega) hcloses

/-- What becomes of names leaves them their bodies. -/
theorem of_becomes (h : s.Owned text n) (hn : n ≤ s.symbols.size)
    (hbecomes : ∀ d, d < s.symbols.size → ∃ early, Becomes early (s.symbol d) (s'.symbol d)) :
    s'.Owned text n := by
  intro b c hc hcloses
  obtain ⟨d, hnames, hinner⟩ := h b c hc hcloses
  have hdeclared := isSome_declaration? hinner
  obtain ⟨_, howner⟩ := hbecomes d (lt_of_declared hdeclared)
  refine ⟨d, ?_, howner.body _ hinner⟩
  have hlt := lt_of_mem_openBraces hcloses.mem
  obtain ⟨_, hbefore⟩ := hbecomes (b - 1) (by omega)
  unfold NamesBody at hnames ⊢
  split at hnames
  · -- the tag stays a name, as it is declared
    rename_i hname
    have hd : b - 1 = d := by omega
    rw [hd] at hname ⊢
    rw [if_pos ((howner.declared hdeclared).2.trans hname)]
    exact hnames
  · rename_i hname
    rw [if_neg fun hkind => hname (hbefore.name hkind)]
    exact hnames

theorem advance (h : s.Owned text n) (hn : n ≤ s.symbols.size) :
    (s.advance cStructs).Owned text n := by
  apply h.of_becomes hn
  intro d hd
  rw [symbol_advance hd]
  exact ⟨False, .refl _ _⟩

/-- No body ends at a symbol that is no closing brace. -/
theorem pass (h : s.Owned text s.token) (hs : s.Legible) (hspelled : s.SpelledAs text)
    (he : s.endSymbol? = none) (hother : s.current.value ≠ closeBrace) :
    (s.advance cStructs).Owned text (s.advance cStructs).token := by
  rw [hs.token_next he]
  apply (h.advance (Nat.le_of_lt hs.token_lt)).succ
  rw [hspelled.token hs.toLatest]
  exact hother

/-- The bodies before a closing brace keep their names where the struct is read on. -/
theorem behind (h : s.Owned text s.token) (hs : s.Legible)
    (hname : Passage (s.closeScope.advance cStructs) s') : s'.Owned text s.token := by
  apply h.of_becomes (Nat.le_of_lt hs.token_lt)
  intro d hd
  rw [← (symbols_closeScope s).1] at hd
  have hbecomes := hname.becomes hs.closeScope.advance (Nat.lt_of_lt_of_le hd size_le_advance)
  rw [symbol_advance hd, symbol_closeScope] at hbecomes
  exact ⟨_, hbecomes⟩

/-- The body that ends at `n` gets its name. -/
theorem setBody (h : s.Owned text n) (hn : n ≤ s.symbols.size) {b : Nat} {bs : List Nat}
    (hopen : openBraces text n = b :: bs) {owner : SymbolId}
    (hnames : NamesBody s.symbol b n owner)
    (hdeclared : (s.symbol owner).declaration?.isSome = true)
    (hnew : (s.symbol owner).innerScope? = none) :
    (s.setBody owner (bodyScope text b)).Owned text (n + 1) := by
  have hold : (s.setBody owner (bodyScope text b)).Owned text n :=
    h.of_becomes hn fun d _ => ⟨False, becomes_setBody hnew _ False.elim⟩
  intro b' c hc hcloses
  by_cases hcn : c = n
  · -- the brace at `n` closes the innermost body, which is the one at `b`
    subst hcn
    obtain ⟨-, hhead⟩ := hcloses
    rw [hopen] at hhead
    cases hhead
    refine ⟨owner, ?_, ?_⟩
    · unfold NamesBody at hnames ⊢
      rw [State.setBody, symbol_modifyDeclaration]
      split
      · exact hnames
      · exact hnames
    · rw [State.setBody, symbol_modifyDeclaration, if_pos rfl]
      obtain ⟨x, hx⟩ := Option.isSome_iff_exists.1 hdeclared
      rw [Symbol.innerScope?, hx]
      rfl
  · exact hold b' c (by omega) hcloses

end State.Owned

/-- A passage gives each body that it goes through to its name. -/
theorem Passage.owned (h : Passage s s') (hs : s.Legible) (hspelled : s'.SpelledAs text)
    (hsited : s.Sited text) (howned : s.Owned text s.token) : s'.Owned text s'.token := by
  induction h with
  | refl => exact howned
  | @advance s s' h hother ih =>
    have hs' := h.legible hs
    have hspelled' := hspelled.of_trace (.advance _)
    have howned' := ih hs hspelled' hsited howned
    cases he : s'.endSymbol? with
    | none => exact howned'.pass hs' hspelled' he fun hclose => hother (.inr hclose)
    | some e =>
      rw [hs'.advance_eq_self cStructs he]
      exact howned'
  | report _ _ ih => exact ih hs hspelled hsited howned
  | @edit s s' h id f hf htouches hrefined ih =>
    have hs' := h.legible hs
    have howned' := ih hs (hspelled.of_trace (.of_move (.edit _ id hf))) hsited howned
    exact howned'.of_becomes (Nat.le_of_lt hs'.token_lt) fun d hd =>
      ⟨_, (Passage.edit (.refl s') id hf htouches hrefined).becomes hs' hd⟩
  | @declare s s' h name type hname hscope hnew ih =>
    have hs' := h.legible hs
    have howned' := ih hs (hspelled.of_trace (.of_move (.declare _ _ type))) hsited howned
    exact howned'.of_becomes (Nat.le_of_lt hs'.token_lt) fun d hd =>
      ⟨_, (Passage.declare (.refl s') type hname hscope hnew).becomes hs' hd⟩
  | bind _ _ _ ih => exact ih hs hspelled hsited howned
  | @block s s₁ s₂ s₃ owner h hopen hbody hclose hname htoken howner hdeclared hnew ih ihbody _ =>
    have hs₁ := h.legible hs
    have hs₂ := hbody.legible hs₁.advance.openScope
    have hspelled₃ := hspelled.of_trace (.setBody s₃ owner _)
    obtain ⟨hspelled₁, hspelled₂⟩ := spelled_block hbody hname hspelled₃
    have hsited₁ := (h.sited hs hspelled₁ hsited).1
    obtain ⟨hinside, hstack, hscope⟩ := hsited₁.enter hs₁ hspelled₁ hopen
    have hopen₂ := (hbody.sited hs₁.advance.openScope hspelled₂ hinside).2.trans hstack
    -- the bodies before and inside this one
    have howned₁ := ih hs hspelled₁ hsited howned
    have hstart : (s₁.advance cStructs).Owned text (s₁.advance cStructs).token := by
      apply howned₁.pass hs₁ hspelled₁ (hs₁.not_end (.inl hopen))
      rw [hopen]
      decide
    have howned₂ := ihbody hs₁.advance.openScope hspelled₂ hinside hstart
    have howned₃ := howned₂.behind hs₂ hname
    -- and the body itself
    have hsize₃ : s₂.token ≤ s₃.symbols.size := by
      rw [(hname.legible hs₂.closeScope.advance).size, htoken]
      exact Nat.le_add_right _ 2
    rw [hscope]
    change (s₃.setBody owner (bodyScope text s₁.token)).Owned text s₃.token
    rw [htoken]
    exact howned₃.setBody hsize₃ hopen₂ howner hdeclared hnew

/-! ## Names have scopes -/

/-- What has not been read of the `tokens` is left, and the names among them have got scopes. -/
structure State.Draws (tokens : List Lexeme) (s : State) : Prop where
  rest : s.endSymbol? = none →
    (s.pending.filter fun l => !l.isComment) = tokens.drop s.symbols.size
  placed : ∀ id l, id < s.symbols.size → tokens[id]? = some l → l.kind = .name →
    (s.symbol id).scope?.isSome = true

variable {tokens : List Lexeme} {t : SymbolTable}

namespace State.Draws

theorem of_eq (h : s.Draws tokens) (pending : s'.pending = s.pending)
    (size : s'.symbols.size = s.symbols.size) (endSymbol : s'.endSymbol? = s.endSymbol?)
    (placed : ∀ id, (s.symbol id).scope?.isSome = true → (s'.symbol id).scope?.isSome = true) :
    s'.Draws tokens := by
  refine ⟨?_, ?_⟩
  · rw [endSymbol, pending, size]
    exact h.rest
  · intro id l hid hl hname
    rw [size] at hid
    exact placed id (h.placed id l hid hl hname)

/-- A symbol is added for the next of the tokens, if one is left. -/
theorem add (h : s.Draws tokens) {x : Symbol} {ls : List Lexeme} {e : Option SymbolId}
    (hadds : s.Adds (s.advance t) [x] ls e)
    (hrest : e = none → (ls.filter fun l => !l.isComment) = (tokens.drop s.symbols.size).tail)
    (hx : ∀ l, (tokens.drop s.symbols.size).head? = some l → l.kind = .name →
      x.scope?.isSome = true) : (s.advance t).Draws tokens where
  rest := by
    rw [hadds.endSymbol, hadds.pending, hadds.size, ← List.tail_drop]
    exact hrest
  placed := by
    intro id l hid hl hname
    rw [hadds.size] at hid
    rcases Nat.lt_succ_iff_lt_or_eq.1 hid with hlt | rfl
    · rw [symbol_advance hlt]
      exact h.placed id l hlt hl hname
    · rw [hadds.symbol_size]
      rw [← List.head?_drop] at hl
      exact hx l hl hname

/-- A name that is read gets the scope that is open. -/
theorem read (h : s.Draws tokens) (he : s.endSymbol? = none) : (s.advance t).Draws tokens := by
  have hrest := h.rest he
  rw [filter_eq_of_dropWhile] at hrest
  rcases advance_cases t s with ⟨l, ls, hnext, hadds⟩ | ⟨hnext, -, hadds⟩ | ⟨-, hsome, -⟩
  · rw [hnext] at hrest
    apply h.add hadds
    · rw [← hrest]
      exact fun _ => rfl
    · rw [← hrest]
      intro l' hl' hname
      cases hl'
      change (if l.kind = .name then some s.scope else none).isSome = true
      rw [if_pos hname]
      rfl
  · -- all tokens have been read
    rw [hnext] at hrest
    apply h.add hadds
    · intro hnone
      cases hnone
    · rw [← hrest]
      intro l hl
      cases hl
  · rw [he] at hsome
    cases hsome

theorem advance (h : s.Draws tokens) (hs : s.Latest) : (s.advance t).Draws tokens := by
  cases he : s.endSymbol? with
  | none => exact h.read he
  | some e =>
    rw [hs.advance_eq_self t he]
    exact h

end State.Draws

theorem Move.draws (h : Move t s s') (hs : s.Latest) (hdraws : s.Draws tokens) :
    s'.Draws tokens := by
  cases h with
  | advance => exact hdraws.advance hs
  | report => exact hdraws.of_eq rfl rfl rfl fun _ hsome => hsome
  | edit id hf =>
    refine hdraws.of_eq ?_ Array.size_modify ?_ ?_
    · rfl
    · rfl
    intro i hsome
    rw [symbol_modifySymbol]
    split
    · rw [hf.scope?]
      exact hsome
    · exact hsome
  | declare name type =>
    refine hdraws.of_eq ?_ Array.size_modify ?_ ?_
    · rfl
    · rfl
    intro i hsome
    rw [State.declare, symbol_modifySymbol]
    split
    · rfl
    · exact hsome
  | bind => exact hdraws.of_eq rfl rfl rfl fun _ hsome => hsome

theorem Trace.draws (h : Trace t s s') (hs : s.Latest) (hdraws : s.Draws tokens) :
    s'.Draws tokens := by
  induction h with
  | refl => exact hdraws
  | step hbefore hmove ih => exact hmove.draws (hbefore.latest hs) (ih hs hdraws)
  | @block s s₁ s₂ hbefore _ ih ihbody =>
    have hinside := ihbody ((hbefore.latest hs).of_eq rfl rfl rfl rfl)
      ((ih hs hdraws).of_eq rfl rfl rfl fun _ hsome => hsome)
    unfold State.closeScope
    split
    · exact hinside
    · exact hinside.of_eq rfl rfl rfl fun _ hsome => hsome

theorem draws_ofSource (source : String) :
    (State.ofSource source).Draws (Lexicon.tokens source) := by
  apply State.Draws.read _ rfl
  exact ⟨fun _ => rfl, fun id _ hid => absurd hid (Nat.not_lt_zero id)⟩

/-! ## Sources -/

/-- Where no body is open any more, all are known under their names. -/
theorem liesIn_of_owned (howned : s.Owned (spelling s.symbol) s.token)
    (hclosed : openBraces (spelling s.symbol) s.token = []) {i : Nat} (hi : i ≤ s.token) :
    LiesIn s.symbol i (enclosingScope (spelling s.symbol) i) := by
  unfold enclosingScope
  cases hhead : (openBraces (spelling s.symbol) i).head? with
  | none => exact .outside hhead
  | some b =>
    have hnot : b ∉ openBraces (spelling s.symbol) s.token := by
      rw [hclosed]
      exact List.not_mem_nil
    obtain ⟨c, hc, hcloses⟩ := exists_closes (List.mem_of_head? hhead) hnot hi
    obtain ⟨d, hnames, hinner⟩ := howned b c hc hcloses
    exact .body hhead ⟨c, d, hcloses, hnames, hinner⟩

theorem token_ofSource (source : String) : (State.ofSource source).token = 0 :=
  token_advance rfl

/-- The first symbol stands outside of all bodies. -/
theorem sited_ofSource (source : String) (text : Nat → String) :
    (State.ofSource source).Sited text := by
  have htoken := token_ofSource source
  refine ⟨?_, ?_, ?_⟩
  · rw [htoken, State.ofSource, scope_advance.1, scope_advance.2]
    rfl
  · rw [htoken, State.ofSource, scopes_advance]
    rfl
  · intro id k hk
    -- nothing but the first symbol has been read
    by_cases hid : id = 0
    · subst hid
      have hseat : seat text 0 = 0 := ite_self 0
      rw [hseat]
      rcases scope?_advance hk with hnone | hopen
      · cases hnone
      · exact hopen
    · have hsize := (legible_ofSource source).size
      rw [htoken] at hsize
      rw [symbol_of_size_le (by rw [hsize]; exact Nat.pos_of_ne_zero hid)] at hk
      cases hk

end Parse

open Parse SymbolTable

namespace TranslationUnit

variable {source : String} {id : SymbolId}

theorem lt_size_of_token (hid : id < (Lexicon.tokens source).length) :
    id < (ofSource source).symbols.size := by
  obtain ⟨read, last, hsymbols, htokens, -⟩ := read_ofSource source
  have hread := congrArg List.length htokens
  rw [List.length_map, List.length_map] at hread
  rw [← Array.length_toList, hsymbols, List.length_append, hread]
  exact Nat.lt_add_right _ hid

/-- The symbol of each name, which has the number of its token, records the scope of the innermost
body around it, or around the brace in front of it if it stands right behind an opening brace. -/
theorem scope_of_name (hclean : (ofSource source).hasErrors = false)
    (hname : (Lexicon.tokens source)[id]?.map Lexeme.kind = some .name) :
    ∃ k, ((ofSource source).symbol id).scope? = some k ∧
      LiesIn (ofSource source).symbol (seat (spelling (ofSource source).symbol) id) k := by
  obtain ⟨l, hl, hkind⟩ := Option.map_eq_some_iff.1 hname
  have hid := lt_size_of_token (List.getElem?_eq_some_iff.1 hl).1
  have hread : ofLexemes? SymbolTable.cStructs (Lexicon.lexemes source).1
      (Lexicon.lexemes source).2.position = some (ofSource source) := (Option.some_get _).symm
  obtain ⟨⟨names, s⟩, hprogram, heq⟩ := Option.map_eq_some_iff.1 hread
  rw [← heq] at hclean hid ⊢
  change ∃ k, (s.symbol id).scope? = some k ∧ LiesIn s.symbol (seat (spelling s.symbol) id) k
  change id < s.symbols.size at hid
  have hs := legible_ofSource source
  have hpass := passage_program hs (regular_ofLexemes _ _ _) hprogram hclean
  have hspelled : s.SpelledAs (spelling s.symbol) := fun _ _ => rfl
  have hstart := sited_ofSource source (spelling s.symbol)
  obtain ⟨hsited, hopen⟩ := hpass.sited hs hspelled hstart
  have howned := hpass.owned hs hspelled hstart (by
    intro b c hc
    rw [token_ofSource] at hc
    exact absurd hc (Nat.not_lt_zero c))
  obtain ⟨k, hk⟩ := Option.isSome_iff_exists.1
    ((hpass.trace.draws hs.toLatest (draws_ofSource source)).placed id l hid hl hkind)
  refine ⟨k, hk, ?_⟩
  -- without errors all braces are closed at the end
  have hclosed : openBraces (spelling s.symbol) s.token = [] := by
    rw [hopen, token_ofSource]
    rfl
  have hseat : seat (spelling s.symbol) id ≤ s.token := by
    rw [(hpass.legible hs).size] at hid
    exact Nat.le_trans (seat_le _ id) (Nat.le_of_lt_succ hid)
  rw [hsited.housed id k hk]
  exact liesIn_of_owned howned hclosed hseat

/-- A struct inside another one. -/
def nestedStruct : String := "struct a { int n; struct { char c; } b; };"

theorem scope_of_innerName : ((ofSource nestedStruct).hasErrors = false ∧
    (Lexicon.tokens nestedStruct)[12]?.map Lexeme.kind = some .name) ∧
      ∃ k, ((ofSource nestedStruct).symbol 12).scope? = some k ∧
        LiesIn (ofSource nestedStruct).symbol
          (seat (spelling (ofSource nestedStruct).symbol) 12) k := by
  have hclean : (ofSource nestedStruct).hasErrors = false := by decide +kernel
  have hname : (Lexicon.tokens nestedStruct)[12]?.map Lexeme.kind = some .name := by decide +kernel
  exact ⟨⟨hclean, hname⟩, scope_of_name hclean hname⟩

/-- A struct whose body starts with a name. -/
def leadingName : String := "struct a { x };"

theorem liesIn_of_leadingName : LiesIn (ofSource leadingName).symbol 3 1 := by
  have hopen : (openBraces (spelling (ofSource leadingName).symbol) 3).head? = some 2 := by
    decide +kernel
  have hclose : spelling (ofSource leadingName).symbol 4 = closeBrace ∧
      (openBraces (spelling (ofSource leadingName).symbol) 4).head? = some 2 := by
    decide +kernel
  have htag : ((ofSource leadingName).symbol 1).kind = .name ∧
      ((ofSource leadingName).symbol 1).innerScope? = some 1 := by
    decide +kernel
  apply LiesIn.body hopen
  refine ⟨4, 1, hclose, ?_, htag.2⟩
  unfold NamesBody
  rw [if_pos htag.1]

/-- The name stands in the body, and records the scope around it. -/
theorem not_scope_of_body : ¬∀ (source : String) (id : SymbolId),
    (ofSource source).hasErrors = false →
      (Lexicon.tokens source)[id]?.map Lexeme.kind = some .name →
        ∃ k, ((ofSource source).symbol id).scope? = some k ∧
          LiesIn (ofSource source).symbol id k := by
  intro h
  have hclean : (ofSource leadingName).hasErrors = false ∧
      ((ofSource leadingName).symbol 3).scope? = some 0 := by
    decide +kernel
  obtain ⟨k, hk, hlies⟩ := h leadingName 3 hclean.1 (by decide +kernel)
  rw [hclean.2, hlies.unique liesIn_of_leadingName] at hk
  cases hk

end TranslationUnit

end CStruct
