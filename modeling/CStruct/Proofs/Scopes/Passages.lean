import CStruct.Proofs.Diagnostics.Lined
import CStruct.Proofs.Scopes.Enclosing
import CStruct.Proofs.Scopes.Keyed

/-!
# Passages

Where nothing is wrong with a source, reading passes a brace only where the body of a struct starts
or ends: the scope of the body is opened behind the opening brace, and closed before the closing one
is passed. A `Passage` is made of such moves. It says what becomes of the names of structs as well,
each of which gets its body once.
-/

namespace CStruct.Parse

open SymbolTable State

variable {s s' s'' : State} {id name d : SymbolId} {k : ScopeId}

/-- `y` is `x` with more known of it: it is no name if `x` is none, and of a declared name the body
stays as it is. -/
structure Refined (x y : Symbol) : Prop where
  name : y.kind = .name → x.kind = .name
  declared : x.declaration?.isSome = true →
    y.declaration?.isSome = true ∧ y.kind = x.kind ∧ y.innerScope? = x.innerScope?

namespace State

/-! ## Braces are read as braces -/

/-- Braces can do nothing, no name is one, and no name stands for one. -/
def Bracketed (s : State) : Prop :=
  ∀ id, IsBrace (s.symbol id).id ∨ IsBrace (s.symbol id).value →
    (s.symbol id).id = (s.symbol id).value ∧ (s.symbol id).kind ≠ .name ∧ (s.symbol id).role = {}

/-- At the end of the source the token is no name. -/
def EndKnown (s : State) : Prop := s.endSymbol? ≠ none → s.current.kind ≠ .name

/-- A C source is read in which a brace is nothing else. -/
structure Legible (s : State) : Prop extends Latest s, Simple s, Keyed s where
  brace : s.Bracketed
  ended : s.EndKnown

/-- A lexeme is spelled like a brace if it is one. -/
theorem prototypeOf_of_text {l : Lexeme} (hl : l.IsSpelled) (hcomment : l.isComment = false)
    (htext : IsBrace l.text) : (s.prototypeOf cStructs l).id = l.text ∧ kindOf l.kind ≠ .name ∧
      (s.prototypeOf cStructs l).role = {} := by
  -- no number, keyword or name is spelled with a brace
  have hkind : l.kind = .operator := by
    refine hl.kind_eq_operator hcomment ?_
    rcases htext with htext | htext
    · rw [htext]
      decide
    · rw [htext]
      decide
  rw [State.prototypeOf, State.prototype?, hkind]
  dsimp only
  rcases htext with htext | htext
  · rw [htext]
    exact ⟨by decide, by decide, by decide⟩
  · rw [htext]
    exact ⟨by decide, by decide, by decide⟩

/-- What has the prototype of a brace is spelled like that. -/
theorem Bracketed.text_of_prototypeOf (h : s.Bracketed) (hkeyed : s.Keyed) {l : Lexeme}
    (hid : IsBrace (s.prototypeOf cStructs l).id) : IsBrace l.text := by
  have hget {p : Prototype} (hp : IsBrace p.id → IsBrace l.text)
      (hid : IsBrace ((cStructs.get? l.text).getD p).id) : IsBrace l.text := by
    cases hfound : cStructs.get? l.text with
    | none =>
      rw [hfound] at hid
      exact hp hid
    | some found =>
      rw [hfound, Option.getD_some, IsRegular.cStructs.id_get? hfound] at hid
      exact hid
  have hresolve (hid : IsBrace (s.resolve cStructs l.text).id) : IsBrace l.text := by
    unfold State.resolve at hid
    split at hid
    · rename_i i hi
      -- the symbol that the lexeme stands for is spelled like it
      obtain ⟨c, -, hc⟩ := List.exists_of_findSome?_eq_some hi
      change IsBrace (s.symbol i).id at hid
      rw [(h i (.inl hid)).1, hkeyed.value c l.text i hc] at hid
      exact hid
    · exact hget (fun hname => absurd hname (by decide)) hid
  unfold State.prototypeOf State.prototype? at hid
  cases hkind : l.kind with
  | name =>
    rw [hkind] at hid
    exact hresolve hid
  | type =>
    rw [hkind] at hid
    exact hresolve hid
  | number =>
    rw [hkind] at hid
    change IsBrace (cStructs.prototype literalId).id at hid
    exact absurd hid (by decide)
  | operator =>
    rw [hkind] at hid
    exact hget (p := { id := l.text }) (fun htext => htext) hid
  | comment =>
    rw [hkind] at hid
    exact hget (p := { id := l.text }) (fun htext => htext) hid

theorem Bracketed.advance (h : s.Bracketed) (hs : s.Simple) (hkeyed : s.Keyed) :
    (s.advance cStructs).Bracketed := by
  intro id hbrace
  by_cases hid : id < s.symbols.size
  · rw [symbol_advance hid] at hbrace ⊢
    exact h id hbrace
  -- a new symbol is made of a lexeme or is the end, and the end is no brace
  · have hdefault : ¬(IsBrace (default : Symbol).id ∨ IsBrace (default : Symbol).value) := by
      decide
    rcases advance_cases cStructs s with ⟨l, ls, hnext, hadds⟩ | ⟨-, -, hadds⟩ | ⟨-, -, hadds⟩
    · rcases hadds.symbol hid with heq | hmem
      · rw [heq] at hbrace
        exact absurd hbrace hdefault
      · rw [List.mem_singleton.1 hmem] at hbrace ⊢
        have hmem : l ∈ s.pending := by
          apply (List.dropWhile_suffix Lexeme.isComment).subset
          rw [hnext]
          exact List.mem_cons_self
        apply prototypeOf_of_text (hs.spelled l hmem) (isComment_of_next hnext)
        rcases hbrace with hbrace | hbrace
        · exact h.text_of_prototypeOf hkeyed hbrace
        · exact hbrace
    · rcases hadds.symbol hid with heq | hmem
      · rw [heq] at hbrace
        exact absurd hbrace hdefault
      · rw [List.mem_singleton.1 hmem] at hbrace
        change IsBrace (cStructs.prototype endId).id ∨ IsBrace endId at hbrace
        exact absurd hbrace (by decide)
    · rcases hadds.symbol hid with heq | hmem
      · rw [heq] at hbrace
        exact absurd hbrace hdefault
      · cases hmem

/-- At the end nothing is read any more. -/
theorem Latest.advance_eq_self (h : s.Latest) (t : SymbolTable) {e : SymbolId}
    (he : s.endSymbol? = some e) : s.advance t = s := by
  obtain ⟨hpending, htoken⟩ := h.atEnd e he
  have hnext : s.pending.dropWhile Lexeme.isComment = [] := by
    rw [hpending]
    rfl
  have hcomments : s.comments ++ s.pending.takeWhile Lexeme.isComment = s.comments := by
    rw [hpending, List.takeWhile_nil, Array.appendList_nil]
  rw [advance_eq_stay he hnext, ← htoken, ← hpending, afterComments, hcomments]

theorem endKnown_advance (he : s.endSymbol? = none) : (s.advance cStructs).EndKnown := by
  intro hend
  obtain ⟨x, ls, e, cs, ds, -, hx, heq⟩ := advance_eq_add cStructs he
  rw [heq] at hend ⊢
  obtain ⟨i, hi⟩ := Option.ne_none_iff_exists'.1 hend
  obtain ⟨-, -, hkind⟩ := hx i hi
  change (State.symbol (s.push x) s.symbols.size).kind ≠ .name
  rw [symbol_push, hkind]
  decide

namespace Legible

/-- What can do something is no brace. -/
theorem not_brace_of_role (h : s.Legible) (hrole : (s.symbol id).role ≠ {}) :
    ¬IsBrace (s.symbol id).value :=
  fun hbrace => hrole (h.brace id (.inr hbrace)).2.2

theorem not_brace_of_name (h : s.Legible) (hname : (s.symbol id).kind = .name) :
    ¬IsBrace (s.symbol id).value :=
  fun hbrace => (h.brace id (.inr hbrace)).2.1 hname

theorem not_brace_of_check (h : s.Legible) {other : String} (hcheck : s.check other = true)
    (hother : ¬IsBrace other) : ¬IsBrace s.current.value := by
  intro hbrace
  have hid := (h.brace s.token (.inr hbrace)).1
  change s.current.id = s.current.value at hid
  rw [← hid, beq_iff_eq.1 hcheck] at hbrace
  exact hother hbrace

/-- A brace that is expected is there. -/
theorem value_of_check (h : s.Legible) {brace : String} (hbrace : IsBrace brace)
    (hcheck : s.check brace = true) : s.current.value = brace := by
  have hid : s.current.id = brace := beq_iff_eq.1 hcheck
  have hvalue := (h.brace s.token (.inl (hid.symm ▸ hbrace))).1
  exact hvalue.symm.trans hid

/-- The end is no brace. -/
theorem not_end (h : s.Legible) (hbrace : IsBrace s.current.value) : s.endSymbol? = none := by
  by_contra he
  have hid := (h.brace s.token (.inr hbrace)).1
  change s.current.id = s.current.value at hid
  rw [← hid, (h.endsAs he).current] at hbrace
  exact absurd hbrace (by decide)

theorem not_end_of_name (h : s.Legible) (hname : s.current.kind = .name) : s.endSymbol? = none := by
  by_contra he
  exact h.ended he hname

theorem advance (h : s.Legible) : (s.advance cStructs).Legible where
  toLatest := h.toLatest.advance cStructs
  toSimple := h.toSimple.trace (.advance s)
  toKeyed := h.toKeyed.advance
  brace := h.brace.advance h.toSimple h.toKeyed
  ended := by
    cases he : s.endSymbol? with
    | none => exact endKnown_advance he
    | some e =>
      rw [h.advance_eq_self cStructs he]
      exact h.ended

/-- A change to other things than symbols and entries. -/
theorem of_eq (h : s.Legible) (hkeyed : s'.Keyed) (symbols : s'.symbols = s.symbols)
    (token : s'.token = s.token) (endSymbol : s'.endSymbol? = s.endSymbol?)
    (pending : s'.pending = s.pending) : s'.Legible := by
  have hsymbol (id : SymbolId) : s'.symbol id = s.symbol id := by rw [symbol, symbol, symbols]
  refine ⟨h.toLatest.of_eq ?_ token endSymbol pending,
    h.toSimple.of_eq symbols token endSymbol pending, hkeyed, ?_, ?_⟩
  · rw [symbols]
  · intro id
    rw [hsymbol]
    exact h.brace id
  · unfold EndKnown
    rw [endSymbol, current, token, hsymbol]
    exact h.ended

theorem report (h : s.Legible) (ds : Diagnostics) : Legible { s with diagnostics := ds } :=
  h.of_eq (h.toKeyed.of_eq rfl rfl) rfl rfl rfl rfl

theorem bind (h : s.Legible) (hid : id < s.symbols.size) {value : String}
    (hvalue : (s.symbol id).value = value) : (s.bind value id).Legible :=
  h.of_eq (h.toKeyed.bind hid hvalue) rfl rfl rfl rfl

theorem openScope (h : s.Legible) : s.openScope.Legible :=
  h.of_eq h.toKeyed.openScope rfl rfl rfl rfl

theorem closeScope (h : s.Legible) : s.closeScope.Legible := by
  unfold State.closeScope
  split
  · exact h
  · exact h.of_eq (h.toKeyed.of_eq rfl rfl) rfl rfl rfl rfl

theorem edit (h : s.Legible) {f : Symbol → Symbol} (hf : Edits f) (htouches : Touches f)
    (hname : (f (s.symbol id)).kind = .name → (s.symbol id).kind = .name) :
    (s.modifySymbol id f).Legible where
  toLatest := h.toLatest.of_eq Array.size_modify rfl rfl rfl
  toSimple := h.toSimple.trace (.of_move (.edit s id hf))
  toKeyed := h.toKeyed.touch htouches id
  brace := by
    intro i hbrace
    rw [Parse.symbol_modifySymbol] at hbrace ⊢
    split
    · rename_i hi
      rw [if_pos hi, hf.id, hf.value] at hbrace
      obtain ⟨hid, hkind, hrole⟩ := h.brace i hbrace
      refine ⟨by rw [hf.id, hf.value, hid], ?_, by rw [hf.role, hrole]⟩
      rw [hi.1] at hkind ⊢
      exact fun hkept => hkind (hname hkept)
    · rename_i hi
      rw [if_neg hi] at hbrace
      exact h.brace i hbrace
  ended := by
    intro hend
    have hended := h.ended hend
    change ((s.modifySymbol id f).symbol s.token).kind ≠ .name
    rw [Parse.symbol_modifySymbol]
    split
    · rename_i hid
      rw [hid.1]
      rw [State.current, hid.1] at hended
      exact fun hkept => hended (hname hkept)
    · exact hended

theorem declare (h : s.Legible) (hname : (s.symbol name).kind = .name) (type : SymbolId) :
    (s.declare name type).Legible where
  toLatest := h.toLatest.of_eq Array.size_modify rfl rfl rfl
  toSimple := h.toSimple.trace (.of_move (.declare s name type))
  toKeyed := h.toKeyed.touch (touches_declare s.scope type) name
  brace := by
    intro i hbrace
    rw [State.declare, Parse.symbol_modifySymbol] at hbrace ⊢
    split
    · rename_i hi
      rw [if_pos hi] at hbrace
      rw [hi.1] at hbrace
      exact absurd hname (h.brace name hbrace).2.1
    · rename_i hi
      rw [if_neg hi] at hbrace
      exact h.brace i hbrace
  ended := by
    intro hend
    have hended := h.ended hend
    change ((s.declare name type).symbol s.token).kind ≠ .name
    rw [State.declare, Parse.symbol_modifySymbol]
    split
    · rename_i hid
      rw [State.current, hid.1] at hended
      exact absurd hname hended
    · exact hended

end Legible

end State

/-! ## Passages -/

/-- Reading where nothing is wrong. A name is declared in the scope that it was read in. The body of
a struct stands between two braces, and is given to the name `owner`. -/
inductive Passage : State → State → Prop
  | refl (s : State) : Passage s s
  | advance {s s' : State} (h : Passage s s') (hother : ¬IsBrace s'.current.value) :
    Passage s (s'.advance cStructs)
  | report {s s' : State} (h : Passage s s') (ds : Diagnostics) :
    Passage s { s' with diagnostics := ds }
  | edit {s s' : State} (h : Passage s s') (id : SymbolId) {f : Symbol → Symbol} (hf : Edits f)
    (htouches : Touches f) (hrefined : Refined (s'.symbol id) (f (s'.symbol id))) :
    Passage s (s'.modifySymbol id f)
  | declare {s s' : State} (h : Passage s s') {name : SymbolId} (type : SymbolId)
    (hname : (s'.symbol name).kind = .name) (hscope : (s'.symbol name).scope? = some s'.scope)
    (hnew : s'.Undeclared name) : Passage s (s'.declare name type)
  | bind {s s' : State} (h : Passage s s') {id : SymbolId} (hid : id < s'.symbols.size)
    {value : String} (hvalue : (s'.symbol id).value = value) : Passage s (s'.bind value id)
  | block {s s₁ s₂ s₃ : State} {owner : SymbolId} (h : Passage s s₁)
    (hopen : s₁.current.value = openBrace)
    (hbody : Passage (s₁.advance cStructs).openScope s₂)
    (hclose : s₂.current.value = closeBrace)
    (hname : Passage (s₂.closeScope.advance cStructs) s₃) (htoken : s₃.token = s₂.token + 1)
    (howner : NamesBody s₃.symbol s₁.token s₂.token owner)
    (hdeclared : (s₃.symbol owner).declaration?.isSome = true)
    (hnew : (s₃.symbol owner).innerScope? = none) :
    Passage s (s₃.setBody owner (s₁.advance cStructs).openScope.scope)

namespace Passage

theorem trans (h : Passage s s') (h' : Passage s' s'') : Passage s s'' := by
  induction h' with
  | refl => exact h
  | advance _ hother ih => exact .advance (ih h) hother
  | report _ ds ih => exact .report (ih h) ds
  | edit _ id hf htouches hrefined ih => exact .edit (ih h) id hf htouches hrefined
  | declare _ type hname hscope hnew ih => exact .declare (ih h) type hname hscope hnew
  | bind _ hid hvalue ih => exact .bind (ih h) hid hvalue
  | block _ hopen hbody hclose hname htoken howner hdeclared hnew ih =>
    exact .block (ih h) hopen hbody hclose hname htoken howner hdeclared hnew

/-- Whatever the table, reading takes a trace. -/
theorem trace (h : Passage s s') : Trace cStructs s s' := by
  induction h with
  | refl => exact .refl _
  | advance _ _ ih => exact ih.step (.advance _)
  | report _ ds ih => exact ih.step (.report _ ds)
  | edit _ id hf _ _ ih => exact ih.step (.edit _ id hf)
  | declare _ type _ _ _ ih => exact ih.step (.declare _ _ type)
  | bind _ _ _ ih => exact ih.step (.bind _ _ _)
  | @block s s₁ s₂ s₃ owner _ _ _ _ _ _ _ _ _ ih ihbody ihname =>
    have hblock : Trace cStructs s s₂.closeScope := (ih.step (.advance s₁)).block ihbody
    exact ((hblock.step (.advance _)).trans ihname).trans (.setBody s₃ owner _)

theorem token_le (h : Passage s s') (hs : s.Legible) : s.token ≤ s'.token :=
  h.trace.token_le hs.toLatest

/-- Braces are read as braces all along. -/
theorem legible (h : Passage s s') (hs : s.Legible) : s'.Legible := by
  induction h with
  | refl => exact hs
  | advance _ _ ih => exact (ih hs).advance
  | report _ ds ih => exact (ih hs).report ds
  | edit _ id hf htouches hrefined ih => exact (ih hs).edit hf htouches hrefined.name
  | declare _ type hname _ _ ih => exact (ih hs).declare hname type
  | bind _ hid hvalue ih => exact (ih hs).bind hid hvalue
  | block _ _ _ _ _ _ _ _ _ ih ihbody ihname =>
    -- as reading goes: into the body, out of it, and over the name behind it
    have hinside := ihbody (ih hs).advance.openScope
    have hnamed := ihname hinside.closeScope.advance
    exact hnamed.edit (edits_declaration _) (touches_declaration _) fun hkind => hkind

end Passage

/-! ## What becomes of names -/

/-- What has a body is declared. -/
theorem isSome_declaration? {x : Symbol} (h : x.innerScope? = some k) :
    x.declaration?.isSome = true := by
  obtain ⟨declaration, hdeclaration, -⟩ := Option.bind_eq_some_iff.1 h
  rw [hdeclaration]
  rfl

/-- `y` is what `x` becomes: none but a name is one later, what is declared stays so, and a body is
kept. An `early` name gets no body any more. -/
structure Becomes (early : Prop) (x y : Symbol) : Prop where
  name : y.kind = .name → x.kind = .name
  declared : x.declaration?.isSome = true → y.declaration?.isSome = true ∧ y.kind = x.kind
  body : ∀ k, x.innerScope? = some k → y.innerScope? = some k
  early : early → x.declaration?.isSome = true → y.innerScope? = x.innerScope?

namespace Becomes

variable {x y z : Symbol} {early early' : Prop}

theorem refl (early : Prop) (x : Symbol) : Becomes early x x :=
  ⟨fun h => h, fun h => ⟨h, rfl⟩, fun _ h => h, fun _ _ => rfl⟩

theorem trans (h : Becomes early x y) (h' : Becomes early' y z) (hle : early → early') :
    Becomes early x z where
  name := fun hz => h.name (h'.name hz)
  declared := by
    intro hx
    obtain ⟨hy, hkind⟩ := h.declared hx
    obtain ⟨hz, hkind'⟩ := h'.declared hy
    exact ⟨hz, hkind'.trans hkind⟩
  body := fun k hk => h'.body k (h.body k hk)
  early := by
    intro hearly hx
    rw [h'.early (hle hearly) (h.declared hx).1, h.early hearly hx]

theorem of_refined (h : Refined x y) : Becomes early x y where
  name := h.name
  declared := fun hx => ⟨(h.declared hx).1, (h.declared hx).2.1⟩
  body := by
    intro k hk
    rw [(h.declared (isSome_declaration? hk)).2.2, hk]
  early := fun _ hx => (h.declared hx).2.2

/-- A name that is new can become anything that is a name. -/
theorem of_new (hname : x.kind = .name) (hnew : x.declaration? = none) : Becomes early x y where
  name := fun _ => hname
  declared := by
    intro hx
    rw [hnew] at hx
    cases hx
  body := by
    intro k hk
    have hx := isSome_declaration? hk
    rw [hnew] at hx
    cases hx
  early := by
    intro _ hx
    rw [hnew] at hx
    cases hx

end Becomes

/-- Where a scope is closed, only the open scopes change. -/
theorem closeScope_eq_with (s : State) :
    ∃ c outer, s.closeScope = { s with scope := c, outer := outer } := by
  unfold State.closeScope
  split
  · exact ⟨s.scope, s.outer, rfl⟩
  · exact ⟨_, _, rfl⟩

theorem symbols_closeScope (s : State) :
    s.closeScope.symbols = s.symbols ∧ s.closeScope.token = s.token := by
  obtain ⟨c, outer, heq⟩ := closeScope_eq_with s
  rw [heq]
  exact ⟨rfl, rfl⟩

theorem symbol_closeScope (s : State) (id : SymbolId) : s.closeScope.symbol id = s.symbol id := by
  rw [State.symbol, (symbols_closeScope s).1]
  rfl

theorem lt_of_declared (h : (s.symbol d).declaration?.isSome = true) : d < s.symbols.size := by
  by_contra hle
  rw [symbol_of_size_le (Nat.le_of_not_lt hle)] at h
  cases h

theorem becomes_setBody (h : (s.symbol name).innerScope? = none) (body : ScopeId) {early : Prop}
    (hearly : early → d ≠ name) :
    Becomes early (s.symbol d) ((s.setBody name body).symbol d) := by
  rw [State.setBody, symbol_modifyDeclaration]
  split
  · rename_i hd
    rw [hd]
    refine ⟨fun hname => hname, fun hdeclared => ⟨?_, rfl⟩, fun k hk => ?_, fun he => ?_⟩
    · rw [Option.isSome_map]
      exact hdeclared
    · rw [h] at hk
      cases hk
    · exact absurd hd (hearly he)
  · exact .refl _ _

theorem Passage.lt_size_of_body {s₁ s₂ : State}
    (hbody : Passage (s₁.advance cStructs).openScope s₂) (hd : d < s₁.symbols.size) :
    d < s₂.closeScope.symbols.size := by
  rw [(symbols_closeScope s₂).1]
  exact Nat.lt_of_lt_of_le (Nat.lt_of_lt_of_le hd size_le_advance) hbody.trace.spares.size_le

/-- What becomes of a name where the body of a struct is read. -/
theorem Becomes.through {s₁ s₂ s₃ : State} (hs : s₁.Legible)
    (hbody : Passage (s₁.advance cStructs).openScope s₂) (hd : d < s₁.symbols.size)
    (hinside : Becomes (d + 1 < (s₁.advance cStructs).openScope.token)
      ((s₁.advance cStructs).openScope.symbol d) (s₂.symbol d))
    (hbehind : Becomes (d + 1 < (s₂.closeScope.advance cStructs).token)
      ((s₂.closeScope.advance cStructs).symbol d) (s₃.symbol d)) :
    Becomes (d + 1 < (s₁.advance cStructs).token) (s₁.symbol d) (s₃.symbol d) := by
  change Becomes (d + 1 < (s₁.advance cStructs).token) ((s₁.advance cStructs).symbol d)
    (s₂.symbol d) at hinside
  rw [symbol_advance hd] at hinside
  rw [symbol_advance (hbody.lt_size_of_body hd), symbol_closeScope] at hbehind
  have hs₂ := hbody.legible hs.advance.openScope
  have htoken : (s₁.advance cStructs).token ≤ s₂.token := hbody.token_le hs.advance.openScope
  have hclose : s₂.token ≤ (s₂.closeScope.advance cStructs).token := by
    rw [← (symbols_closeScope s₂).2]
    exact (Trace.advance s₂.closeScope).token_le hs₂.closeScope.toLatest
  exact hinside.trans hbehind fun hearly =>
    Nat.lt_of_lt_of_le hearly (Nat.le_trans htoken hclose)

/-- A name before what is read gets no body there, but for the one right before it, which may be the
tag of the struct whose body is read. -/
theorem Passage.becomes (h : Passage s s') (hs : s.Legible) (hd : d < s.symbols.size) :
    Becomes (d + 1 < s.token) (s.symbol d) (s'.symbol d) := by
  induction h with
  | refl => exact .refl _ _
  | @advance s s' h _ ih =>
    rw [symbol_advance (Nat.lt_of_lt_of_le hd h.trace.spares.size_le)]
    exact ih hs hd
  | report _ _ ih => exact ih hs hd
  | edit _ id _ _ hrefined ih =>
    apply (ih hs hd).trans _ fun hearly => hearly
    rw [symbol_modifySymbol]
    split
    · rename_i hi
      rw [hi.1]
      exact .of_refined hrefined
    · exact .refl _ _
  | declare _ type hname _ hnew ih =>
    apply (ih hs hd).trans _ fun hearly => hearly
    rw [State.declare, symbol_modifySymbol]
    split
    · rename_i hi
      rw [hi.1]
      exact .of_new hname hnew
    · exact .refl _ _
  | bind _ _ _ ih => exact ih hs hd
  | @block s s₁ s₂ s₃ owner h _ hbody _ _ _ howner _ hnew ih ihbody ihname =>
    have hs₁ := h.legible hs
    have hd₁ : d < s₁.symbols.size := Nat.lt_of_lt_of_le hd h.trace.spares.size_le
    have hthrough := Becomes.through hs₁ hbody hd₁
      (ihbody hs₁.advance.openScope (Nat.lt_of_lt_of_le hd₁ size_le_advance))
      (ihname (hbody.legible hs₁.advance.openScope).closeScope.advance
        (Nat.lt_of_lt_of_le (hbody.lt_size_of_body hd₁) size_le_advance))
    have htoken₁ : s.token ≤ s₁.token := h.token_le hs
    have hstart : s₁.token ≤ (s₁.advance cStructs).token :=
      (Trace.advance s₁).token_le hs₁.toLatest
    have htoken₂ : (s₁.advance cStructs).token ≤ s₂.token := hbody.token_le hs₁.advance.openScope
    -- the name that gets the body stands right before the brace or behind it
    have hother : d + 1 < s.token → d ≠ owner := by
      rintro hlt rfl
      unfold NamesBody at howner
      split at howner
      · rw [howner] at hlt
        exact Nat.not_lt_of_le htoken₁ hlt
      · rw [howner] at hlt
        have hle : s.token ≤ s₂.token := Nat.le_trans (Nat.le_trans htoken₁ hstart) htoken₂
        exact Nat.not_lt_of_le (Nat.le_add_right_of_le (k := 2) hle) hlt
    have hread := (ih hs hd).trans hthrough fun hearly =>
      Nat.lt_of_lt_of_le hearly (Nat.le_trans htoken₁ hstart)
    exact hread.trans (becomes_setBody hnew _ hother) fun hearly => hearly

end CStruct.Parse
