import CStruct.Proofs.Expression.Passing

/-!
# States that differ in how symbols are tied together

While an expression is read, its operators are tied to their operands. The symbols that are read
next do not depend on that: `Same` is kept by all that passes symbols.
-/

namespace CStruct.Parse

open SymbolTable

namespace State

/-- Symbols that stand at the same place and mean the same. -/
structure Alike (x y : Symbol) : Prop where
  toPrototype : x.toPrototype = y.toPrototype
  value : x.value = y.value
  span : x.span = y.span

/-- The states agree but for what has been made of symbols that were read. -/
structure Same (s z : State) : Prop where
  rest : s = { z with symbols := s.symbols }
  size : s.symbols.size = z.symbols.size
  alike : ∀ id, Alike (s.symbol id) (z.symbol id)
  named : ∀ name id, z.local? name = some id →
    (z.symbol id).reserved = true ∨ (s.symbol id).kind = (z.symbol id).kind
  current : s.current = z.current

theorem Alike.refl (x : Symbol) : Alike x x := ⟨rfl, rfl, rfl⟩

namespace Same

variable {s z s' z' : State} {t : SymbolTable}

theorem refl (s : State) : Same s s := ⟨rfl, rfl, fun _ => .refl _, fun _ _ _ => .inr rfl, rfl⟩

theorem token (h : Same s z) : s.token = z.token := by rw [h.rest]

theorem pending (h : Same s z) : s.pending = z.pending := by rw [h.rest]

theorem endSymbol? (h : Same s z) : s.endSymbol? = z.endSymbol? := by rw [h.rest]

theorem diagnostics (h : Same s z) : s.diagnostics = z.diagnostics := by rw [h.rest]

theorem scope (h : Same s z) : s.scope = z.scope := by rw [h.rest]

theorem local? (h : Same s z) (name : String) : s.local? name = z.local? name := by
  rw [h.rest]
  rfl

theorem role (h : Same s z) (id : SymbolId) : (s.symbol id).role = (z.symbol id).role :=
  congrArg Prototype.role (h.alike id).toPrototype

theorem symbol_push_cases (s : State) (x : Symbol) (id : SymbolId) :
    (s.push x).symbol id = if id = s.symbols.size then x else s.symbol id := by
  show (s.symbols.push x).getD id default = if id = s.symbols.size then x else s.symbols.getD id default
  rw [Array.getD_eq_getD_getElem?, Array.getElem?_push, Array.getD_eq_getD_getElem?]
  split
  · rfl
  · rfl

/-- The same symbol is added in both states. -/
theorem push (h : Same s z) {x : Symbol}
    (hrest : s' = { z' with symbols := s'.symbols, token := s'.token })
    (hs : s'.symbols = s.symbols.push x) (hz : z'.symbols = z.symbols.push x)
    (htoken : s'.token = s.symbols.size) (htoken' : z'.token = z.symbols.size)
    (hlocal : ∀ name, z'.local? name = z.local? name) : Same s' z' := by
  have hsymbol (id : SymbolId) : s'.symbol id = if id = z.symbols.size then x else s.symbol id := by
    rw [← h.size, ← symbol_push_cases, symbol, hs]
    rfl
  have hsymbol' (id : SymbolId) :
      z'.symbol id = if id = z.symbols.size then x else z.symbol id := by
    rw [← symbol_push_cases, symbol, hz]
    rfl
  rw [h.size, ← htoken'] at htoken
  rw [htoken] at hrest
  refine ⟨hrest, by rw [hs, hz, Array.size_push, Array.size_push, h.size], fun id => ?_,
    fun name id hname => ?_, ?_⟩
  · rw [hsymbol, hsymbol']
    split
    · exact .refl x
    · exact h.alike id
  · rw [hsymbol, hsymbol']
    split
    · exact .inr rfl
    · rw [hlocal] at hname
      exact h.named name id hname
  · rw [State.current, State.current, hsymbol, hsymbol', htoken, htoken', if_pos rfl, if_pos rfl]

theorem prototype? (h : Same s z) (l : Lexeme) : s.prototype? t l = z.prototype? t l := by
  have hresolve : s.resolve t l.text = z.resolve t l.text := by
    have hfind : s.find? l.text = z.find? l.text := by
      rw [h.rest]
      rfl
    unfold State.resolve
    rw [hfind]
    split
    · rename_i id _
      exact (h.alike id).toPrototype
    · rfl
  unfold State.prototype?
  rw [hresolve]

/-- Before the end, the same symbol is read next. -/
theorem advance (h : Same s z) (he : z.endSymbol? = none) : Same (s.advance t) (z.advance t) := by
  have he' : s.endSymbol? = none := h.endSymbol?.trans he
  cases hnext : z.pending.dropWhile Lexeme.isComment with
  | nil =>
    have hnext' : s.pending.dropWhile Lexeme.isComment = [] := by rw [h.pending, hnext]
    have hend : s.endSymbolOf t = z.endSymbolOf t := by
      rw [h.rest]
      rfl
    rw [advance_eq_end he hnext, advance_eq_end he' hnext', hend, h.size]
    exact h.push (by rw [h.rest]; rfl) rfl rfl rfl rfl fun _ => rfl
  | cons l ls =>
    have hnext' : s.pending.dropWhile Lexeme.isComment = l :: ls := by rw [h.pending, hnext]
    have hmade (p : Prototype) : s.madeOf p l = z.madeOf p l := by
      unfold madeOf
      rw [h.scope]
    have hp' := h.prototype? (t := t) l
    cases hp : z.prototype? t l with
    | some p =>
      rw [advance_eq_push hnext hp, advance_eq_push hnext' (hp'.trans hp), hmade]
      exact h.push (by rw [h.rest]; rfl) rfl rfl rfl rfl fun _ => rfl
    | none =>
      rw [advance_eq_unknown hnext hp, advance_eq_unknown hnext' (hp'.trans hp), hmade]
      exact h.push (by rw [h.rest]; rfl) rfl rfl rfl rfl fun _ => rfl

variable {keyword : SymbolId}

theorem report (h : Same s z) (keyword : SymbolId) {problem : Problem} :
    Same (s.report keyword problem) (z.report keyword problem) where
  rest := by
    unfold State.report State.reportAt
    rw [(h.alike keyword).span, h.rest]
  size := h.size
  alike := h.alike
  named := h.named
  current := h.current

-- A keyword is bound in the same way, even if it has been made an operator in one of the states.
theorem bound (h : Same s z) (hkeyword : z.Behind keyword) (value : String) :
    Same ((s.modifySymbol keyword ({ · with reserved := true })).bind value keyword)
      ((z.modifySymbol keyword ({ · with reserved := true })).bind value keyword) := by
  have hlt : keyword < s.symbols.size := h.size ▸ hkeyword.lt
  have hreserved :
      ((z.modifySymbol keyword ({ · with reserved := true })).symbol keyword).reserved = true := by
    rw [symbol_modifySymbol_self hkeyword.lt]
  refine ⟨by rw [h.rest]; rfl, ?_, fun id => ?_, fun name id hname => ?_, ?_⟩
  · show (s.symbols.modify keyword _).size = (z.symbols.modify keyword _).size
    rw [Array.size_modify, Array.size_modify, h.size]
  · show Alike ((s.modifySymbol keyword _).symbol id) ((z.modifySymbol keyword _).symbol id)
    by_cases hid : id = keyword
    · subst hid
      rw [symbol_modifySymbol_self hlt, symbol_modifySymbol_self hkeyword.lt]
      have hproto := congrArg (fun p : Prototype => { p with reserved := true })
        (h.alike id).toPrototype
      exact ⟨hproto, (h.alike id).value, (h.alike id).span⟩
    · rw [symbol_modifySymbol_of_ne hid, symbol_modifySymbol_of_ne hid]
      exact h.alike id
  · show ((z.modifySymbol keyword _).symbol id).reserved = true ∨
      ((s.modifySymbol keyword _).symbol id).kind = ((z.modifySymbol keyword _).symbol id).kind
    by_cases hid : id = keyword
    · exact .inl (hid ▸ hreserved)
    · rw [symbol_modifySymbol_of_ne hid, symbol_modifySymbol_of_ne hid]
      exact h.named name id ((local?_bind hname).resolve_right hid)
  · show (s.modifySymbol keyword _).symbol s.token = (z.modifySymbol keyword _).symbol z.token
    rw [h.token, symbol_modifySymbol_of_ne hkeyword.ne.symm,
      symbol_modifySymbol_of_ne hkeyword.ne.symm, ← State.current, ← h.current, State.current, h.token]

theorem reserve (h : Same s z) (hkeyword : z.Behind keyword) :
    Same (s.reserve keyword) (z.reserve keyword) := by
  unfold State.reserve
  dsimp only
  rw [(h.alike keyword).value, h.local?]
  cases hlocal : z.local? (z.symbol keyword).value with
  | none => exact h.bound hkeyword _
  | some existing =>
    have hreserved : (s.symbol existing).reserved = (z.symbol existing).reserved :=
      congrArg Prototype.reserved (h.alike existing).toPrototype
    dsimp only
    by_cases hcase : (z.symbol existing).reserved = true
    · rw [if_pos (hreserved.trans hcase), if_pos hcase]
      exact h
    · rw [if_neg fun heq => hcase (hreserved.symm.trans heq), if_neg hcase,
        (h.named _ existing hlocal).resolve_left hcase]
      split
      · unfold warnDefined
        rw [(h.alike keyword).value]
        exact (h.report keyword).bound ⟨hkeyword.lt, hkeyword.ne⟩ _
      · exact h.bound hkeyword _

/-- What has been passed can be changed in one of the states, if no name stands for it. -/
theorem modifySymbol (h : Same s z) {id : SymbolId} (hid : z.Behind id) (hfree : z.Free id)
    {f : Symbol → Symbol} (hf : Alike (f (s.symbol id)) (s.symbol id)) :
    Same (s.modifySymbol id f) z := by
  have hlt : id < s.symbols.size := h.size ▸ hid.lt
  refine ⟨by rw [h.rest]; rfl, ?_, fun i => ?_, fun name i hname => ?_, ?_⟩
  · rw [State.modifySymbol, Array.size_modify, h.size]
  · by_cases hi : i = id
    · subst hi
      rw [symbol_modifySymbol_self hlt]
      exact ⟨hf.toPrototype.trans (h.alike i).toPrototype, hf.value.trans (h.alike i).value,
        hf.span.trans (h.alike i).span⟩
    · rw [symbol_modifySymbol_of_ne hi]
      exact h.alike i
  · by_cases hi : i = id
    · subst hi
      exact .inl (hfree name hname)
    · rw [symbol_modifySymbol_of_ne hi]
      exact h.named name i hname
  · show (s.modifySymbol id f).symbol s.token = z.current
    rw [h.token, symbol_modifySymbol_of_ne hid.ne.symm, ← h.token]
    exact h.current

end Same

end State

end CStruct.Parse
