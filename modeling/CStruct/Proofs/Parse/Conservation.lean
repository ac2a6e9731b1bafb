import CStruct.Proofs.Grammar.Acceptance
import CStruct.Proofs.Parse.Changes
import CStruct.Proofs.Parse.Course

/-!
# Nothing is lost, and reading ends

What a state has read and what it is still to read make up one account of the source: its `ledger`
of symbols and its `remarks`, the comments. No change alters either, so at the end there is one
symbol for each lexeme that is no comment, in order, and one for the end of the source. Nothing but
the end is taken for the end, unless a lexeme is spelled like it, which none of a source is.
-/

namespace CStruct.Parse

open SymbolTable State

variable {t : SymbolTable} {s s' s'' : State}

namespace State

/-! ## Reading the next symbol -/

/-- The prototype of a lexeme, also when the table does not have it. -/
def prototypeOf (t : SymbolTable) (s : State) (l : Lexeme) : Prototype :=
  (s.prototype? t l).getD { id := l.text }

/-- The comments that come next have been put aside and the symbols `xs` added; the lexemes `ls` are
left. -/
structure Adds (s s' : State) (xs : List Symbol) (ls : List Lexeme) (endSymbol? : Option SymbolId) :
    Prop where
  symbols : s'.symbols.toList = s.symbols.toList ++ xs
  pending : s'.pending = ls
  endSymbol : s'.endSymbol? = endSymbol?
  comments : s'.comments = s.comments ++ s.pending.takeWhile Lexeme.isComment
  endPosition : s'.endPosition = s.endPosition
  scopes : s'.scopes = s.scopes

theorem isComment_of_next {l : Lexeme} {ls : List Lexeme}
    (hnext : s.pending.dropWhile Lexeme.isComment = l :: ls) : l.isComment = false := by
  have hhead := List.head?_dropWhile_not Lexeme.isComment s.pending
  rw [hnext] at hhead
  exact hhead

/-- The next symbol is made of a lexeme, or it is the end, which may have been read before. -/
theorem advance_cases (t : SymbolTable) (s : State) :
    (∃ l ls, s.pending.dropWhile Lexeme.isComment = l :: ls ∧
      s.Adds (s.advance t) [s.madeOf (s.prototypeOf t l) l] ls s.endSymbol?) ∨
    (s.pending.dropWhile Lexeme.isComment = [] ∧ s.endSymbol? = none ∧
      s.Adds (s.advance t) [s.endSymbolOf t] [] (some s.symbols.size)) ∨
    (s.pending.dropWhile Lexeme.isComment = [] ∧ s.endSymbol?.isSome ∧
      s.Adds (s.advance t) [] [] s.endSymbol?) := by
  cases hnext : s.pending.dropWhile Lexeme.isComment with
  | nil =>
    cases he : s.endSymbol? with
    | none =>
      refine .inr (.inl ⟨rfl, rfl, ?_⟩)
      rw [advance_eq_end he hnext]
      exact ⟨Array.toList_push, rfl, rfl, rfl, rfl, rfl⟩
    | some e =>
      refine .inr (.inr ⟨rfl, rfl, ?_⟩)
      rw [advance_eq_stay he hnext]
      exact ⟨(List.append_nil _).symm, rfl, he, rfl, rfl, rfl⟩
  | cons l ls =>
    refine .inl ⟨l, ls, rfl, ?_⟩
    cases hp : s.prototype? t l with
    | some p =>
      rw [advance_eq_push hnext hp, prototypeOf, hp]
      exact ⟨Array.toList_push, rfl, rfl, rfl, rfl, rfl⟩
    | none =>
      rw [advance_eq_unknown hnext hp, prototypeOf, hp]
      exact ⟨Array.toList_push, rfl, rfl, rfl, rfl, rfl⟩

theorem scopes_advance : (s.advance t).scopes = s.scopes := by
  rcases advance_cases t s with ⟨l, ls, -, hadds⟩ | ⟨-, -, hadds⟩ | ⟨-, -, hadds⟩ <;>
    exact hadds.scopes

theorem pending_advance : (s.advance t).pending <:+ s.pending := by
  have hsuffix := List.dropWhile_suffix (l := s.pending) Lexeme.isComment
  rcases advance_cases t s with ⟨l, ls, hnext, hadds⟩ | ⟨-, -, hadds⟩ | ⟨-, -, hadds⟩
  · rw [hadds.pending]
    rw [hnext] at hsuffix
    exact (List.suffix_cons l ls).trans hsuffix
  · rw [hadds.pending]
    exact List.nil_suffix
  · rw [hadds.pending]
    exact List.nil_suffix

theorem Adds.symbol {xs : List Symbol} {ls : List Lexeme} {endSymbol? : Option SymbolId}
    (h : s.Adds s' xs ls endSymbol?) {id : SymbolId} (hid : ¬id < s.symbols.size) :
    s'.symbol id = default ∨ s'.symbol id ∈ xs := by
  have hget : s'.symbol id = xs[id - s.symbols.size]?.getD default := by
    rw [State.symbol, Array.getD_eq_getD_getElem?, ← Array.getElem?_toList, h.symbols,
      List.getElem?_append_right (by rw [Array.length_toList]; exact Nat.le_of_not_lt hid),
      Array.length_toList]
  rw [hget]
  cases hx : xs[id - s.symbols.size]? with
  | none => exact .inl rfl
  | some x => exact .inr (List.mem_of_getElem? hx)

/-- A symbol has been read before, or it has just been made. -/
theorem symbol_advance_cases (t : SymbolTable) (s : State) (id : SymbolId) :
    (s.advance t).symbol id = s.symbol id ∨ (s.advance t).symbol id = default ∨
      (∃ l, (s.advance t).symbol id = s.madeOf (s.prototypeOf t l) l) ∨
        (s.advance t).symbol id = s.endSymbolOf t := by
  by_cases hid : id < s.symbols.size
  · exact .inl (symbol_advance hid)
  · right
    rcases advance_cases t s with ⟨l, ls, -, hadds⟩ | ⟨-, -, hadds⟩ | ⟨-, -, hadds⟩
    · exact (hadds.symbol hid).imp_right fun hmem => .inl ⟨l, List.mem_singleton.1 hmem⟩
    · exact (hadds.symbol hid).imp_right fun hmem => .inr (List.mem_singleton.1 hmem)
    · exact (hadds.symbol hid).imp_right fun hmem => absurd hmem List.not_mem_nil

/-! ## The account of a source -/

/-- The symbols that have been read and those that are to come, the end last. -/
def ledger (s : State) : List (String × Span) :=
  s.symbols.toList.map (fun x => (x.value, x.span)) ++
    (s.pending.filter fun l => !l.isComment).map (fun l => (l.text, l.span)) ++
      if s.endSymbol?.isSome then [] else [(endId, .empty s.endPosition)]

theorem getElem?_symbols {id : SymbolId} (h : id < s.symbols.size) :
    s.symbols.toList[id]? = some (s.symbol id) := by
  rw [State.symbol, Array.getD_eq_getD_getElem?, Array.getElem?_toList,
    Array.getElem?_eq_getElem h, Option.getD_some]

theorem getElem?_ledger {id : SymbolId} (hid : id < s.symbols.size) :
    s.ledger[id]? = some ((s.symbol id).value, (s.symbol id).span) := by
  rw [State.ledger, List.append_assoc, List.getElem?_append_left (by simpa using hid),
    List.getElem?_map, getElem?_symbols hid]
  rfl

/-- The comments that have been put aside and those that are to come. -/
def remarks (s : State) : List Lexeme := s.comments.toList ++ s.pending.filter Lexeme.isComment

/-- The account of the source stays as it is. -/
structure Conserves (s s' : State) : Prop where
  ledger : s'.ledger = s.ledger
  remarks : s'.remarks = s.remarks
  endPosition : s'.endPosition = s.endPosition

theorem Conserves.refl (s : State) : s.Conserves s := ⟨rfl, rfl, rfl⟩

theorem Conserves.trans (h : s.Conserves s') (h' : s'.Conserves s'') : s.Conserves s'' :=
  ⟨h'.ledger.trans h.ledger, h'.remarks.trans h.remarks, h'.endPosition.trans h.endPosition⟩

/-- How a symbol is spelled and where it stands does not change. -/
theorem Conserves.symbol (h : s.Conserves s') {id : SymbolId} (hid : id < s.symbols.size)
    (hid' : id < s'.symbols.size) :
    ((s'.symbol id).value, (s'.symbol id).span) = ((s.symbol id).value, (s.symbol id).span) := by
  have hget := getElem?_ledger hid'
  rw [h.ledger, getElem?_ledger hid] at hget
  exact (Option.some.inj hget).symm

/-- A change to other things than symbols, lexemes and comments. -/
theorem conserves_of_eq (pending : s'.pending = s.pending) (symbols : s'.symbols = s.symbols)
    (endSymbol : s'.endSymbol? = s.endSymbol?) (comments : s'.comments = s.comments)
    (endPosition : s'.endPosition = s.endPosition) : s.Conserves s' := by
  refine ⟨?_, ?_, endPosition⟩
  · rw [State.ledger, State.ledger, pending, symbols, endSymbol, endPosition]
  · rw [State.remarks, State.remarks, pending, comments]

theorem map_modify_of_eq {α β : Type} {f : α → α} {g : α → β} (h : ∀ x, g (f x) = g x)
    (xs : Array α) (i : Nat) : (xs.modify i f).toList.map g = xs.toList.map g := by
  apply List.ext_getElem?
  intro j
  rw [List.getElem?_map, List.getElem?_map, Array.getElem?_toList, Array.getElem?_modify,
    Array.getElem?_toList]
  split
  · rw [Option.map_map]
    exact congrArg (Option.map · xs[j]?) (funext h)
  · rfl

/-- A change to a symbol that leaves its spelling and its place. -/
theorem conserves_modifySymbol {f : Symbol → Symbol} (hvalue : ∀ x, (f x).value = x.value)
    (hspan : ∀ x, (f x).span = x.span) (s : State) (id : SymbolId) :
    s.Conserves (s.modifySymbol id f) := by
  refine ⟨?_, rfl, rfl⟩
  have hmap := map_modify_of_eq (g := fun x : Symbol => (x.value, x.span))
    (fun x => Prod.ext (hvalue x) (hspan x)) s.symbols id
  unfold State.ledger State.modifySymbol
  rw [hmap]

theorem conserves_touch {f : Symbol → Symbol} (hf : Touches f) (s : State) (id : SymbolId) :
    s.Conserves (s.modifySymbol id f) := conserves_modifySymbol hf.value hf.span s id

theorem ledger_ofLexemes (lexemes : List Lexeme) (endPosition : Position) :
    (State.ofLexemes lexemes endPosition).ledger =
      (lexemes.filter fun l => !l.isComment).map (fun l => (l.text, l.span)) ++
        [(endId, .empty endPosition)] := rfl

/-- Comments are put aside, and one lexeme moves on to the symbols. -/
theorem conserves_advance (t : SymbolTable) (s : State) : s.Conserves (s.advance t) := by
  have htokens := filter_eq_of_dropWhile s.pending
  have htaken : (s.pending.takeWhile Lexeme.isComment).filter Lexeme.isComment =
      s.pending.takeWhile Lexeme.isComment :=
    List.filter_eq_self.2 (List.all_eq_true.1 List.all_takeWhile)
  have hcomments : s.pending.filter Lexeme.isComment = s.pending.takeWhile Lexeme.isComment ++
      (s.pending.dropWhile Lexeme.isComment).filter Lexeme.isComment := by
    rw [← htaken, ← List.filter_append, List.takeWhile_append_dropWhile]
  rcases advance_cases t s with ⟨l, ls, hnext, hadds⟩ | ⟨hnext, he, hadds⟩ | ⟨hnext, he, hadds⟩
  · -- The next lexeme leaves what is pending and joins the symbols.
    rw [hnext, List.filter_cons_of_neg (by rw [isComment_of_next hnext]; nofun)] at hcomments
    rw [hnext] at htokens
    refine ⟨?_, ?_, hadds.endPosition⟩
    · rw [State.ledger, State.ledger, hadds.symbols, hadds.pending, hadds.endSymbol,
        hadds.endPosition, htokens]
      simp [madeOf]
    · rw [State.remarks, State.remarks, hadds.comments, hadds.pending, hcomments,
        Array.toList_appendList, List.append_assoc]
  · -- The end has been on the account all along, and becomes a symbol.
    rw [hnext, List.filter_nil, List.append_nil] at hcomments
    rw [hnext] at htokens
    refine ⟨?_, ?_, hadds.endPosition⟩
    · rw [State.ledger, State.ledger, hadds.symbols, hadds.pending, hadds.endSymbol, htokens, he]
      simp [endSymbolOf]
    · rw [State.remarks, State.remarks, hadds.comments, hadds.pending, hcomments,
        Array.toList_appendList, List.filter_nil, List.append_nil]
  · rw [hnext, List.filter_nil, List.append_nil] at hcomments
    rw [hnext] at htokens
    refine ⟨?_, ?_, hadds.endPosition⟩
    · rw [State.ledger, State.ledger, hadds.symbols, hadds.pending, hadds.endSymbol,
        hadds.endPosition, htokens, List.append_nil]
      rfl
    · rw [State.remarks, State.remarks, hadds.comments, hadds.pending, hcomments,
        Array.toList_appendList, List.filter_nil, List.append_nil]

theorem conserves_closeScope (s : State) : s.Conserves s.closeScope := by
  unfold State.closeScope
  split
  · exact .refl s
  · exact conserves_of_eq rfl rfl rfl rfl rfl

end State

theorem Change.conserves (h : Change t s s') : s.Conserves s' := by
  cases h with
  | advance => exact conserves_advance t s
  | report => exact conserves_of_eq rfl rfl rfl rfl rfl
  | touch hplain hf => exact conserves_touch hf s _
  | bind => exact conserves_of_eq rfl rfl rfl rfl rfl
  | openScope => exact conserves_of_eq rfl rfl rfl rfl rfl
  | closeScope => exact conserves_closeScope s

theorem Changes.conserves (h : Changes t s s') : s.Conserves s' := by
  induction h with
  | refl => exact .refl s
  | tail _ hchange ih => exact ih.trans hchange.conserves

/-! ## Nothing else is the end -/

namespace State

/-- The symbol of the end is the last one and the only one that looks like the end, and no name
stands for it. -/
structure OneEnd (s : State) : Prop where
  only : ∀ i x, s.symbols.toList[i]? = some x → x.id = endId ∨ x.kind = .endOfInput →
    s.endSymbol? = some i
  last : ∀ e, s.endSymbol? = some e → s.pending = [] ∧ s.symbols.size = e + 1
  bound : ∀ k name id, (s.scopeAt k).get? name = some id → s.Plain id
  pending : ∀ l ∈ s.pending, l.isComment = false → l.text ≠ endId

theorem OneEnd.of_eq (h : s.OneEnd) (symbols : s'.symbols = s.symbols)
    (endSymbol : s'.endSymbol? = s.endSymbol?) (scopes : s'.scopes = s.scopes)
    (pending : s'.pending = s.pending) : s'.OneEnd := by
  refine ⟨?_, ?_, ?_, ?_⟩
  · rw [symbols, endSymbol]
    exact h.only
  · rw [symbols, endSymbol, pending]
    exact h.last
  · intro k name id hk
    rw [State.scopeAt, scopes] at hk
    have hplain := h.bound k name id hk
    exact ⟨symbols ▸ hplain.lt, endSymbol ▸ hplain.ne⟩
  · rw [pending]
    exact h.pending

/-- A lexeme that is not spelled like the end does not make the end. -/
theorem OneEnd.prototypeOf_ne (h : s.OneEnd) (ht : t.IsRegular) {l : Lexeme}
    (hl : l.text ≠ endId) : (s.prototypeOf t l).id ≠ endId := by
  have hknown {p : Prototype} (hp : t.get? l.text = some p) : p.id ≠ endId := by
    rw [ht.id_get? hp]
    exact hl
  have hget : ((t.get? l.text).getD { id := l.text }).id ≠ endId := by
    cases hp : t.get? l.text with
    | none => exact hl
    | some p => exact hknown hp
  have hresolve : (s.resolve t l.text).id ≠ endId := by
    unfold State.resolve
    split
    · rename_i id hid
      obtain ⟨k, -, hk⟩ := List.exists_of_findSome?_eq_some hid
      -- the name stands for a symbol that is not the end, and only the end looks like it
      have hplain := h.bound k l.text id hk
      exact fun hend => hplain.ne (h.only id _ (getElem?_symbols hplain.lt) (.inl hend))
    · cases hp : t.get? l.text with
      | none =>
        show (t.prototype nameId).id ≠ endId
        rw [ht.id]
        decide
      | some p => exact hknown hp
  unfold prototypeOf State.prototype?
  cases l.kind with
  | name => exact hresolve
  | type => exact hresolve
  | number =>
    show (t.prototype literalId).id ≠ endId
    rw [ht.id]
    decide
  | operator => exact hget
  | comment => exact hget

theorem OneEnd.bound_of_adds (h : s.OneEnd) {xs : List Symbol} {ls : List Lexeme}
    {endSymbol? : Option SymbolId} (hadds : s.Adds s' xs ls endSymbol?)
    (hend : ∀ id, s.Plain id → endSymbol? ≠ some id) (k : ScopeId) (name : String) (id : SymbolId)
    (hk : (s'.scopeAt k).get? name = some id) : s'.Plain id := by
  rw [State.scopeAt, hadds.scopes] at hk
  have hplain := h.bound k name id hk
  have hle : s.symbols.size ≤ s'.symbols.size := by
    rw [← Array.length_toList, ← Array.length_toList, hadds.symbols, List.length_append]
    exact Nat.le_add_right _ _
  exact ⟨Nat.lt_of_lt_of_le hplain.lt hle, hadds.endSymbol ▸ hend id hplain⟩

/-- No lexeme is made into the end. -/
theorem OneEnd.lexeme (h : s.OneEnd) (ht : t.IsRegular) {l : Lexeme} {ls : List Lexeme}
    (hnext : s.pending.dropWhile Lexeme.isComment = l :: ls)
    (hadds : s.Adds s' [s.madeOf (s.prototypeOf t l) l] ls s.endSymbol?) : s'.OneEnd := by
  have hsubset : ∀ l' ∈ l :: ls, l' ∈ s.pending := fun l' hl' =>
    (List.dropWhile_suffix (l := s.pending) Lexeme.isComment).subset (hnext ▸ hl')
  refine ⟨?_, ?_, h.bound_of_adds hadds fun id hplain => hplain.ne, ?_⟩
  · intro i x hi hend
    rw [hadds.symbols, List.getElem?_append] at hi
    rw [hadds.endSymbol]
    split at hi
    · exact h.only i x hi hend
    · obtain rfl := List.mem_singleton.1 (List.mem_of_getElem? hi)
      rcases hend with hid | hkind
      · have htext := h.pending l (hsubset l List.mem_cons_self) (isComment_of_next hnext)
        exact absurd hid (h.prototypeOf_ne ht htext)
      · have hkindOf : ∀ k, kindOf k ≠ .endOfInput := by intro k; cases k <;> decide
        exact absurd hkind (hkindOf l.kind)
  · intro e he
    rw [hadds.endSymbol] at he
    rw [(h.last e he).1] at hnext
    cases hnext
  · rw [hadds.pending]
    exact fun l' hl' => h.pending l' (hsubset l' (List.mem_cons_of_mem l hl'))

/-- The end is made once, behind all else. -/
theorem OneEnd.ending (h : s.OneEnd) (he : s.endSymbol? = none)
    (hadds : s.Adds s' [s.endSymbolOf t] [] (some s.symbols.size)) : s'.OneEnd := by
  refine ⟨?_, ?_, h.bound_of_adds hadds fun id hplain hid => ?_, ?_⟩
  · intro i x hi hend
    rw [hadds.symbols, List.getElem?_append] at hi
    rw [hadds.endSymbol]
    split at hi
    · have hnone := h.only i x hi hend
      rw [he] at hnone
      cases hnone
    · rename_i hlt
      have hzero := (List.getElem?_eq_some_iff.1 hi).1
      rw [Array.length_toList] at hlt
      rw [List.length_singleton, Array.length_toList] at hzero
      have hi : s.symbols.size = i := by omega
      rw [hi]
  · intro e hend
    rw [hadds.endSymbol] at hend
    refine ⟨hadds.pending, ?_⟩
    rw [← Array.length_toList, hadds.symbols, List.length_append, Array.length_toList,
      ← Option.some.inj hend]
    rfl
  · exact Nat.ne_of_gt hplain.lt (Option.some.inj hid)
  · rw [hadds.pending]
    exact List.forall_mem_nil _

/-- Nothing comes behind the end. -/
theorem OneEnd.stay (h : s.OneEnd) (hadds : s.Adds s' [] [] s.endSymbol?) : s'.OneEnd := by
  refine ⟨?_, ?_, h.bound_of_adds hadds fun id hplain => hplain.ne, ?_⟩
  · rw [hadds.symbols, hadds.endSymbol, List.append_nil]
    exact h.only
  · intro e hend
    rw [hadds.endSymbol] at hend
    refine ⟨hadds.pending, ?_⟩
    rw [← Array.length_toList, hadds.symbols, List.append_nil, Array.length_toList]
    exact (h.last e hend).2
  · rw [hadds.pending]
    exact List.forall_mem_nil _

theorem OneEnd.advance (h : s.OneEnd) (ht : t.IsRegular) : (s.advance t).OneEnd := by
  rcases advance_cases t s with ⟨l, ls, hnext, hadds⟩ | ⟨-, he, hadds⟩ | ⟨-, -, hadds⟩
  · exact h.lexeme ht hnext hadds
  · exact h.ending he hadds
  · exact h.stay hadds

theorem OneEnd.touch (h : s.OneEnd) {f : Symbol → Symbol} (hf : Touches f) (id : SymbolId) :
    (s.modifySymbol id f).OneEnd := by
  refine ⟨?_, ?_, ?_, h.pending⟩
  · intro i x hi hend
    rw [State.modifySymbol, Array.getElem?_toList, Array.getElem?_modify,
      ← Array.getElem?_toList] at hi
    split at hi
    · obtain ⟨y, hy, rfl⟩ := Option.map_eq_some_iff.1 hi
      rw [hf.id] at hend
      exact h.only i y hy (hend.imp_right (hf.kind y))
    · exact h.only i x hi hend
  · rw [State.modifySymbol, Array.size_modify]
    exact h.last
  · intro k name i hk
    have hplain := h.bound k name i hk
    refine ⟨?_, hplain.ne⟩
    rw [State.modifySymbol, Array.size_modify]
    exact hplain.lt

/-- An entry of a scope after a name has been bound. -/
theorem entry_bind {name other : String} {id i : SymbolId} {k : ScopeId}
    (h : ((s.bind name id).scopeAt k).get? other = some i) :
    i = id ∧ other = name ∨ (s.scopeAt k).get? other = some i := by
  rw [scopeAt_bind] at h
  split at h
  · rw [Scope.get?, Scope.insert, Dictionary.get?_insert] at h
    split at h
    · rename_i hother
      exact .inl ⟨(Option.some.inj h).symm, hother⟩
    · exact .inr h
  · exact .inr h

theorem OneEnd.bind (h : s.OneEnd) {id : SymbolId} (hid : s.Plain id) (name : String) :
    (s.bind name id).OneEnd := by
  refine ⟨h.only, h.last, ?_, h.pending⟩
  intro k other i hk
  suffices hplain : s.Plain i from ⟨hplain.lt, hplain.ne⟩
  rcases entry_bind hk with ⟨rfl, -⟩ | hold
  · exact hid
  · exact h.bound k other i hold

theorem scopeAt_openScope (s : State) (k : ScopeId) : s.openScope.scopeAt k =
    if k = s.scopes.size then { parent? := some s.scope } else s.scopeAt k := by
  rw [State.scopeAt, State.scopeAt, State.openScope, Array.getD_eq_getD_getElem?,
    Array.getD_eq_getD_getElem?, Array.getElem?_push]
  split <;> rfl

theorem OneEnd.openScope (h : s.OneEnd) : s.openScope.OneEnd := by
  refine ⟨h.only, h.last, ?_, h.pending⟩
  intro k name id hk
  rw [scopeAt_openScope] at hk
  split at hk
  · cases hk
  · have hplain := h.bound k name id hk
    exact ⟨hplain.lt, hplain.ne⟩

end State

theorem Change.oneEnd (h : Change t s s') (ht : t.IsRegular) (hs : s.OneEnd) : s'.OneEnd := by
  cases h with
  | advance => exact hs.advance ht
  | report => exact hs.of_eq rfl rfl rfl rfl
  | touch hplain hf => exact hs.touch hf _
  | bind hplain => exact hs.bind hplain _
  | openScope => exact hs.openScope
  | closeScope =>
    unfold State.closeScope
    split
    · exact hs
    · exact hs.of_eq rfl rfl rfl rfl

theorem Changes.oneEnd (h : Changes t s s') (ht : t.IsRegular) (hs : s.OneEnd) : s'.OneEnd := by
  induction h with
  | refl => exact hs
  | tail _ hchange ih => exact hchange.oneEnd ht ih

/-- What stops the reading looks like the end, so it is the end: it is the last symbol, and nothing
is pending. -/
theorem State.OneEnd.of_check (h : s.OneEnd) (hsound : s.Sound t) (hend : s.check endId = true) :
    s.pending = [] ∧ s.endSymbol?.isSome ∧ ∃ read last, s.symbols.toList = read ++ [last] ∧
      IsEnd t last ∧ ∀ x ∈ read, x.id ≠ endId ∧ x.kind ≠ .endOfInput := by
  have htoken := getElem?_symbols hsound.token_lt
  have hended : s.endSymbol? = some s.token := h.only _ _ htoken (.inl (beq_iff_eq.1 hend))
  obtain ⟨hpending, hsize⟩ := h.last _ hended
  refine ⟨hpending, Option.isSome_of_eq_some hended, s.symbols.toList.take s.token, s.current, ?_,
    (hsound.atEnd _ hended).2.2, ?_⟩
  · have hall : s.symbols.toList.take (s.token + 1) = s.symbols.toList := by
      rw [← hsize]
      exact List.take_length
    rw [List.take_add_one, htoken] at hall
    exact hall.symm
  · intro x hx
    obtain ⟨i, hi, rfl⟩ := List.getElem_of_mem hx
    have hlt : i < s.token := Nat.lt_of_lt_of_le hi (List.length_take_le _ _)
    have hget : s.symbols.toList[i]? = some (s.symbols.toList.take s.token)[i] := by
      rw [List.getElem_take, List.getElem?_eq_getElem]
    have hne : s.endSymbol? ≠ some i := by
      rw [hended]
      exact fun heq => Nat.ne_of_gt hlt (Option.some.inj heq)
    exact ⟨fun hid => hne (h.only i _ hget (.inl hid)),
      fun hkind => hne (h.only i _ hget (.inr hkind))⟩

/-! ## Whole sources -/

theorem scopeAt_ofLexemes (lexemes : List Lexeme) (endPosition : Position) (k : ScopeId) :
    (State.ofLexemes lexemes endPosition).scopeAt k = {} := by
  rw [State.scopeAt, Array.getD_eq_getD_getElem?]
  cases k <;> rfl

theorem oneEnd_ofLexemes {lexemes : List Lexeme}
    (h : ∀ l ∈ lexemes, l.isComment = false → l.text ≠ endId)
    (endPosition : Position) : (State.ofLexemes lexemes endPosition).OneEnd := by
  refine ⟨?_, nofun, ?_, h⟩
  · intro i x hx
    change ([] : List Symbol)[i]? = some x at hx
    rw [List.getElem?_nil] at hx
    cases hx
  · intro k name id hk
    rw [scopeAt_ofLexemes] at hk
    cases hk

/-- Reading lexemes with a table in which the end stops everything is a run that stops at the end, or
at a lexeme that is spelled like it. -/
theorem run_ofLexemes (ht : t.Ends) (lexemes : List Lexeme) (endPosition : Position) :
    ∃ names s', TranslationUnit.ofLexemes? t lexemes endPosition = some (.ofState names s') ∧
      Run t ((State.ofLexemes lexemes endPosition).advance t) s' ∧ s'.Sound t ∧
      s'.check endId = true := by
  have hpoised := poised_ofLexemes t lexemes endPosition
  obtain ⟨names, s', hs', hleads, hend⟩ := program_isSome ht _ hpoised.sound
    (Nat.le_of_lt (left_lt_fuel _))
  refine ⟨names, s', ?_, run_program ht.toStops hpoised hs', hleads.sound, hend⟩
  rw [TranslationUnit.ofLexemes?]
  dsimp only
  rw [hs']
  rfl

theorem changes_program (ht : t.Ends) (lexemes : List Lexeme) (endPosition : Position) :
    ∃ names s', TranslationUnit.ofLexemes? t lexemes endPosition = some (.ofState names s') ∧
      Changes t (.ofLexemes lexemes endPosition) s' ∧ s'.Sound t ∧ s'.check endId = true := by
  obtain ⟨names, s', hs', hrun, hend⟩ := run_ofLexemes ht lexemes endPosition
  have hfirst : Changes t (.ofLexemes lexemes endPosition) _ := .single (.advance _)
  have hchanges := hrun.changes (poised_ofLexemes t lexemes endPosition)
  exact ⟨names, s', hs', hfirst.trans hchanges, hend⟩

end CStruct.Parse

namespace CStruct.TranslationUnit

open SymbolTable

/-- No lexeme of a source is spelled like the end: nothing starts with a parenthesis. -/
theorem text_ne_end {l : Lexeme} (h : l.IsSpelled) (hcomment : l.isComment = false) :
    l.text ≠ endId := by
  intro htext
  have hkind := h.kind_eq_operator hcomment (by rw [htext]; decide)
  obtain ⟨c, -, hsingle⟩ := h.of_operator hkind
  have hlist : endId.toList = [c] := by rw [← htext, hsingle, String.toList_ofList]
  cases hlist

/-- How reading a C source ends. -/
theorem ofSource_eq (source : String) : ∃ names s',
    ofLexemes? cStructs (Lexicon.lexemes source).1 (Lexicon.lexemes source).2.position =
      some (ofSource source) ∧
    ofSource source = ofState names s' ∧
    Parse.Changes cStructs
      (.ofLexemes (Lexicon.lexemes source).1 (Lexicon.lexemes source).2.position) s' ∧
    s'.pending = [] ∧ s'.endSymbol?.isSome ∧ ∃ read last, s'.symbols.toList = read ++ [last] ∧
      Parse.IsEnd cStructs last ∧ ∀ x ∈ read, x.id ≠ endId ∧ x.kind ≠ .endOfInput := by
  obtain ⟨names, s', hs', hchanges, hsound, hend⟩ := Parse.changes_program ends_cStructs
    (Lexicon.lexemes source).1 (Lexicon.lexemes source).2.position
  have hunit : ofSource source = ofState names s' := Option.get_of_eq_some _ hs'
  have hone := hchanges.oneEnd .cStructs (Parse.oneEnd_ofLexemes
    (fun l hl => text_ne_end (Lexicon.isSpelled_of_mem_lexemes hl)) _)
  exact ⟨names, s', hunit ▸ hs', hunit, hchanges, hone.of_check hsound hend⟩

/-- The symbols of a source are its lexemes that are no comments, and the end. -/
theorem read_ofSource (source : String) :
    ∃ read last, (ofSource source).symbols.toList = read ++ [last] ∧
      read.map (fun x => (x.value, x.span)) =
        (Lexicon.tokens source).map (fun l => (l.text, l.span)) ∧
      (∀ x ∈ read, x.id ≠ endId ∧ x.kind ≠ .endOfInput) ∧
      last.id = endId ∧ last.kind = .endOfInput ∧ last.value = endId ∧
      last.span = .empty (Position.after {} source.toList) := by
  obtain ⟨names, s', -, hunit, hchanges, hpending, hended, read, last, hsymbols, hlast, hread⟩ :=
    ofSource_eq source
  refine ⟨read, last, hunit ▸ hsymbols, ?_⟩
  have hledger := hchanges.conserves.ledger
  rw [Parse.State.ledger_ofLexemes, Parse.State.ledger, hpending, if_pos hended, hsymbols,
    Lexicon.position_lexemes, List.filter_nil, List.map_nil, List.append_nil, List.append_nil,
    List.map_append] at hledger
  -- the accounts agree, so their last entries do, and what stands before them
  obtain ⟨htokens, hkey⟩ := List.append_inj' hledger rfl
  have hkey := List.cons.inj hkey |>.1
  exact ⟨htokens, hread, hlast.id ends_cStructs, hlast.kind, congrArg Prod.fst hkey,
    congrArg Prod.snd hkey⟩

theorem comments_ofSource (source : String) : (ofSource source).comments.toList =
    (Lexicon.lexemes source).1.filter Lexeme.isComment := by
  obtain ⟨names, s', -, hunit, hchanges, hpending, -⟩ := ofSource_eq source
  have hremarks := hchanges.conserves.remarks
  rw [Parse.State.remarks, Parse.State.remarks, hpending] at hremarks
  rw [hunit, ← List.append_nil (Array.toList _)]
  exact hremarks

/-- Every C source has a translation unit, whatever is wrong with it. -/
theorem ofLexer?_lexer (source : String) :
    ofLexer? cStructs (Lexicon.lexer source) = .ok (some (ofSource source)) := by
  obtain ⟨-, -, hread, -⟩ := ofSource_eq source
  rw [ofLexer?, Lexicon.toEnd_lexer]
  exact congrArg Except.ok hread

/-- Every C source has a translation unit, whatever is wrong with it, and nothing of the source is
lost in it or doubled: it has one symbol for each lexeme that is no comment, with its text and in
its place, then the one symbol of the end, and it has all comments. -/
theorem symbols_ofSource (source : String) :
    ofLexer? cStructs (Lexicon.lexer source) = .ok (some (ofSource source)) ∧
    (∃ read last, (ofSource source).symbols.toList = read ++ [last] ∧
      read.map (fun x => (x.value, x.span)) =
        (Lexicon.tokens source).map (fun l => (l.text, l.span)) ∧
      (∀ x ∈ read, x.id ≠ endId ∧ x.kind ≠ .endOfInput) ∧
      last.id = endId ∧ last.kind = .endOfInput ∧ last.value = endId ∧
      last.span = .empty (Position.after {} source.toList)) ∧
    (ofSource source).comments.toList =
      (Lexicon.lexemes source).1.filter Lexeme.isComment :=
  ⟨ofLexer?_lexer source, read_ofSource source, comments_ofSource source⟩

/-- Reading always ends, with at most one symbol for each lexeme that is no comment and one for the
end: no lexemes and no lexer keep it going, if the end of the input stops everything. It is so with
the tables of this library, and for every C source. -/
theorem reading_ends {t : SymbolTable} (ht : t.Ends) :
    (∀ lexemes endPosition, ∃ u, ofLexemes? t lexemes endPosition = some u ∧
      u.symbols.size ≤ (lexemes.filter fun l => !l.isComment).length + 1) ∧
    (∀ (E : PatternEngine) (lexer : Lexer E Lexeme) lexemes lexer',
      lexer.toEnd = .ok (lexemes, lexer') → ∃ u, ofLexer? t lexer = .ok (some u) ∧
        u.symbols.size ≤ (lexemes.filter fun l => !l.isComment).length + 1) ∧
    basic.Ends ∧ cStructs.Ends ∧
    ∀ source, ∃ u, ofLexer? cStructs (Lexicon.lexer source) = .ok (some u) ∧
      u.symbols.size ≤ (Lexicon.tokens source).length + 1 := by
  have hends {t : SymbolTable} (ht : t.Ends) (lexemes : List Lexeme) (endPosition : Position) :
      ∃ u, ofLexemes? t lexemes endPosition = some u ∧
        u.symbols.size ≤ (lexemes.filter fun l => !l.isComment).length + 1 := by
    obtain ⟨names, s', hs', hchanges, -⟩ := Parse.changes_program ht lexemes endPosition
    refine ⟨_, hs', ?_⟩
    -- the account counts what has been read, so that is no more than was there at the start
    have hlength := congrArg List.length hchanges.conserves.ledger
    rw [Parse.State.ledger_ofLexemes, Parse.State.ledger, List.append_assoc, List.length_append,
      List.length_append, List.length_map, List.length_append, List.length_map,
      List.length_map] at hlength
    have hone : [(endId, Span.empty endPosition)].length = 1 := rfl
    show s'.symbols.size ≤ _
    rw [← Array.length_toList]
    omega
  refine ⟨hends ht, ?_, ends_basic, ends_cStructs, ?_⟩
  · intro E lexer lexemes lexer' hlexer
    obtain ⟨u, hu, hsize⟩ := hends ht lexemes lexer'.position
    refine ⟨u, ?_, hsize⟩
    rw [ofLexer?, hlexer]
    exact congrArg Except.ok hu
  · intro source
    obtain ⟨u, hu, hsize⟩ := hends ends_cStructs (Lexicon.lexemes source).1
      (Lexicon.lexemes source).2.position
    refine ⟨u, ?_, hsize⟩
    rw [ofLexer?, Lexicon.toEnd_lexer]
    exact congrArg Except.ok hu

/-- A lexeme that is spelled like the end does not keep reading from ending. -/
theorem reading_ends_at_odd_lexemes :
    cStructs.Ends ∧ (Lexicon.lexer "").toEnd = .ok (Lexicon.lexemes "") ∧
    (∃ u, ofLexemes? cStructs [⟨.name, "struct", {}⟩, ⟨.operator, endId, {}⟩] {} = some u ∧
      u.symbols.size ≤ 3) ∧
    ∃ u, ofLexer? cStructs (Lexicon.lexer "") = .ok (some u) ∧
      u.symbols.size ≤ ((Lexicon.lexemes "").1.filter fun l => !l.isComment).length + 1 := by
  have hends := reading_ends ends_cStructs
  have hlexemes := hends.1 [⟨.name, "struct", {}⟩, ⟨.operator, endId, {}⟩] {}
  have hlexer := hends.2.1 Pattern.engine (Lexicon.lexer "") (Lexicon.lexemes "").1
    (Lexicon.lexemes "").2 (Lexicon.toEnd_lexer "")
  exact ⟨ends_cStructs, Lexicon.toEnd_lexer "", hlexemes, hlexer⟩

/-- Where the end goes by another name, statements do not stop at it. Then even the empty source
keeps reading going, whatever the fuel, though the end neither binds nor takes an operand. -/
theorem reading_of_renamed_end :
    let t := basic.edit endId fun x => { x with id := "eof" }
    t.Stops ∧ (t.prototype endId).id = "eof" ∧
    (∀ fuel, Parse.statements t fuel ((Parse.State.ofLexemes [] {}).advance t) = none) ∧
    ofLexer? t (Lexicon.lexer "") = .ok none := by
  intro t
  have hhalted : Parse.State.Halted ((Parse.State.ofLexemes [] {}).advance t) "eof" :=
    ⟨rfl, rfl, by decide, by decide⟩
  have hstatements (fuel : Nat) :
      Parse.statements t fuel ((Parse.State.ofLexemes [] {}).advance t) = none :=
    hhalted.statements_eq_none (by decide) t fuel
  have hread : ofLexemes? t [] {} = none := by
    rw [ofLexemes?]
    dsimp only
    rw [Option.map_eq_none_iff]
    cases hprogram : Parse.program t _ ((Parse.State.ofLexemes [] {}).advance t) with
    | none => rfl
    | some result =>
      obtain ⟨names, s, hs, -⟩ := Parse.program_cases hprogram
      rw [hstatements] at hs
      cases hs
  refine ⟨⟨by decide, by decide⟩, by decide, hstatements, ?_⟩
  have hlexemes : ((Lexicon.lexemes "").1, (Lexicon.lexemes "").2.position) = ([], {}) := by
    decide +kernel
  obtain ⟨hempty, hposition⟩ := Prod.mk.inj hlexemes
  rw [ofLexer?, Lexicon.toEnd_lexer]
  show Except.ok (ofLexemes? t (Lexicon.lexemes "").1 (Lexicon.lexemes "").2.position) = _
  rw [hempty, hposition, hread]

end CStruct.TranslationUnit
