import CStruct.Proofs.Documentation.Lines
import CStruct.Proofs.Statements.Braces

/-!
# Symbols in the order of the source

The token is the last symbol that has been read, and no symbol starts before one with a smaller
number. So the token never stands before what has been passed, whatever else reading does. Reading
the next symbol of a C source reports nothing, as the table has each operator that the lexer finds.
-/

namespace CStruct

/-! ## Lexemes in the text -/

/-- A lexeme ends within the text. -/
theorem Scanner.stop_le_of_mem_scan {before : Option Char} {p : Position} {text : List Char}
    {l : Lexeme} (h : l ∈ scan before p text) : l.span.stop ≤ p.after text := by
  have hafter {claimed : Nat} (p : Position) (text : List Char) :
      p.after text = (p.after (text.take claimed)).after (text.drop claimed) := by
    rw [← Position.after_append, List.take_append_drop]
  fun_induction scan before p text with
  | case1 => cases h
  | case2 before p c cs piece claimed stop further kind hkind ih =>
    rw [hafter p (c :: cs)]
    rcases List.mem_cons.1 h with rfl | h
    · exact Position.le_after stop _
    · exact ih h
  | case3 before p c cs piece claimed stop further hkind ih =>
    rw [hafter p (c :: cs)]
    exact ih h

namespace Parse

open SymbolTable State

variable {t : SymbolTable} {s s' : State}

namespace State

/-! ## The last symbol -/

/-- The token is the last symbol, and nothing stands behind the end. -/
structure Latest (s : State) : Prop where
  size : s.symbols.size = s.token + 1
  atEnd : ∀ e, s.endSymbol? = some e → s.pending = [] ∧ s.token = e

namespace Latest

theorem token_lt (h : s.Latest) : s.token < s.symbols.size := by
  rw [h.size]
  exact Nat.lt_succ_self _

theorem of_eq (h : s.Latest) (size : s'.symbols.size = s.symbols.size)
    (token : s'.token = s.token) (endSymbol : s'.endSymbol? = s.endSymbol?)
    (pending : s'.pending = s.pending) : s'.Latest where
  size := by
    rw [size, token]
    exact h.size
  atEnd := by
    rw [endSymbol, pending, token]
    exact h.atEnd

end Latest

theorem latest_advance (t : SymbolTable) (he : s.endSymbol? = none) : (s.advance t).Latest := by
  obtain ⟨x, ls, e, cs, ds, -, hend, heq⟩ := advance_eq_add t he
  rw [heq]
  refine ⟨Array.size_push x, fun i hi => ?_⟩
  obtain ⟨hpending, hi, -⟩ := hend i hi
  exact ⟨hpending, hi.symm⟩

theorem Latest.advance (h : s.Latest) (t : SymbolTable) : (s.advance t).Latest := by
  cases he : s.endSymbol? with
  | none => exact latest_advance t he
  | some e =>
    obtain ⟨hpending, htoken⟩ := h.atEnd e he
    have hnext : s.pending.dropWhile Lexeme.isComment = [] := by
      rw [hpending]
      rfl
    rw [advance_eq_stay he hnext]
    exact h.of_eq rfl htoken.symm rfl hpending.symm

end State

theorem Move.latest (h : Move t s s') (hs : s.Latest) : s'.Latest := by
  cases h with
  | advance => exact hs.advance t
  | report => exact hs.of_eq rfl rfl rfl rfl
  | edit => exact hs.of_eq Array.size_modify rfl rfl rfl
  | declare => exact hs.of_eq Array.size_modify rfl rfl rfl
  | bind => exact hs.of_eq rfl rfl rfl rfl

theorem Trace.latest (h : Trace t s s') (hs : s.Latest) : s'.Latest := by
  induction h with
  | refl => exact hs
  | step _ hmove ih => exact hmove.latest (ih hs)
  | block _ _ ih ihbody =>
    have hinside := ihbody ((ih hs).of_eq rfl rfl rfl rfl)
    unfold State.closeScope
    split
    · exact hinside
    · exact hinside.of_eq rfl rfl rfl rfl

/-- Reading never goes back. -/
theorem Trace.token_le (h : Trace t s s') (hs : s.Latest) : s.token ≤ s'.token := by
  have hsize := h.spares.size_le
  rw [hs.size, (h.latest hs).size] at hsize
  exact Nat.le_of_succ_le_succ hsize

/-! ## Places -/

namespace State

/-- What is known of a C source, and that its symbols stand in order. -/
structure Lined (s : State) : Prop extends Latest s, Simple s where
  starts : s.ledger.Pairwise fun x y => x.2.start ≤ y.2.start

theorem Lined.trace (h : s.Lined) (htrace : Trace cStructs s s') : s'.Lined where
  toLatest := htrace.latest h.toLatest
  toSimple := h.toSimple.trace htrace
  starts := by
    rw [htrace.conserves.ledger]
    exact h.starts

theorem Lined.start_le (h : s.Lined) {i j : SymbolId} (hij : i ≤ j) (hj : j < s.symbols.size) :
    (s.symbol i).span.start ≤ (s.symbol j).span.start := by
  rcases Nat.eq_or_lt_of_le hij with rfl | hlt
  · exact Position.le_refl _
  · obtain ⟨hi', hi⟩ := List.getElem?_eq_some_iff.1 (getElem?_ledger (Nat.lt_trans hlt hj))
    obtain ⟨hj', hj⟩ := List.getElem?_eq_some_iff.1 (getElem?_ledger hj)
    have hstart := List.pairwise_iff_getElem.1 h.starts i j hi' hj' hlt
    rw [hi, hj] at hstart
    exact hstart

theorem lined_ofSource (source : String) : (State.ofSource source).Lined where
  toLatest := latest_advance cStructs rfl
  toSimple := simple_ofSource source
  starts := by
    rw [State.ofSource, (conserves_advance _ _).ledger, ledger_ofLexemes,
      Lexicon.position_lexemes, Lexicon.fst_lexemes]
    have hin {l : Lexeme} (hl : l ∈ Scanner.scan none {} source.toList) :
        l.span.start ≤ l.span.stop := by
      rw [Scanner.span_of_mem_scan hl]
      exact Position.le_after _ _
    refine List.pairwise_append.2 ⟨List.pairwise_map.2 ?_, List.pairwise_singleton _ _, ?_⟩
    · refine ((Scanner.pairwise_scan none {} source.toList).imp_of_mem ?_).sublist
        List.filter_sublist
      exact fun hl _ => Position.le_trans (hin hl)
    · intro x hx y hy
      obtain ⟨l, hl, rfl⟩ := List.mem_map.1 hx
      have hl := (List.mem_filter.1 hl).1
      rw [List.mem_singleton.1 hy]
      exact Position.le_trans (hin hl) (Scanner.stop_le_of_mem_scan hl)

end State

/-! ## Reading the next symbol -/

namespace State

theorem isSome_prototype? {l : Lexeme} (h : l.IsSpelled) (hcomment : l.isComment = false) :
    ∃ p, s.prototype? cStructs l = some p := by
  have hknown : (Scanner.operators.all fun c => (cStructs.get? (String.ofList [c])).isSome) =
      true := by
    decide +kernel
  unfold State.prototype?
  cases hkind : l.kind with
  | comment =>
    rw [Lexeme.isComment, hkind] at hcomment
    cases hcomment
  | number => exact ⟨_, rfl⟩
  | type => exact ⟨_, rfl⟩
  | name => exact ⟨_, rfl⟩
  | operator =>
    obtain ⟨c, hc, htext⟩ := h.of_operator hkind
    dsimp only
    rw [htext]
    exact Option.isSome_iff_exists.1 (List.all_eq_true.1 hknown c hc)

theorem diagnostics_advance (h : ∀ l ∈ s.pending, l.IsSpelled) :
    (s.advance cStructs).diagnostics = s.diagnostics := by
  cases hnext : s.pending.dropWhile Lexeme.isComment with
  | nil =>
    cases he : s.endSymbol? with
    | none =>
      rw [advance_eq_end he hnext]
      rfl
    | some e =>
      rw [advance_eq_stay he hnext]
      rfl
  | cons l ls =>
    have hmem : l ∈ s.pending := (List.dropWhile_suffix Lexeme.isComment).subset (by
      rw [hnext]
      exact List.mem_cons_self)
    obtain ⟨p, hp⟩ := isSome_prototype? (s := s) (h l hmem) (isComment_of_next hnext)
    rw [advance_eq_push hnext hp]
    rfl

end State

end Parse

end CStruct
