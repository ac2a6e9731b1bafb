import CStruct.Proofs.Lexer.Ended
import CStruct.Proofs.Statements.Trace

/-!
# Where the end of the input stands

The symbol of the end is read once the lexer has come to its end, and stands where the lexer does:
behind its last match. For the rules of C sources, which claim every character, that is the end of
the source.
-/

namespace CStruct

namespace Parse

open SymbolTable State

variable {t : SymbolTable} {s s' : State}

/-- What is taken for the end of the input stands where the source ends. -/
def State.EndPlaced (s : State) : Prop :=
  ∀ id, (s.symbol id).kind = .endOfInput → (s.symbol id).span = .empty s.endPosition

theorem exists_symbol_eq_of_mem {x : Symbol} (hx : x ∈ s.symbols) : ∃ id, s.symbol id = x := by
  obtain ⟨id, hid, rfl⟩ := Array.mem_iff_getElem.1 hx
  refine ⟨id, ?_⟩
  rw [State.symbol, Array.getD_eq_getD_getElem?, Array.getElem?_eq_getElem hid, Option.getD_some]

theorem endPlaced_advance (t : SymbolTable) (h : s.EndPlaced) : (s.advance t).EndPlaced := by
  intro id hend
  rw [(conserves_advance t s).endPosition]
  rcases symbol_advance_cases t s id with hid | hid | ⟨l, hid⟩ | hid
  · rw [hid] at hend ⊢
    exact h id hend
  · rw [hid] at hend
    cases hend
  · have hkind : ∀ kind, kindOf kind ≠ .endOfInput := by
      intro kind
      cases kind <;> decide
    rw [hid] at hend
    exact absurd hend (hkind l.kind)
  · rw [hid]
    rfl

theorem Move.endPlaced (h : Move t s s') (hs : s.EndPlaced) : s'.EndPlaced := by
  have hmodify {f : Symbol → Symbol} (hspan : ∀ x, (f x).span = x.span)
      (hkind : ∀ x, (f x).kind = .endOfInput → x.kind = .endOfInput) (id : SymbolId) :
      (s.modifySymbol id f).EndPlaced := by
    intro i hend
    rw [symbol_modifySymbol] at hend ⊢
    split at hend
    · rename_i hi
      rw [if_pos hi, hspan]
      exact hs i (hkind _ hend)
    · rename_i hi
      rw [if_neg hi]
      exact hs i hend
  cases h with
  | advance => exact endPlaced_advance t hs
  | report => exact hs
  | edit id hf => exact hmodify hf.span hf.kind id
  | declare name type =>
    refine hmodify ?_ ?_ name
    · exact fun _ => rfl
    · exact fun _ hend => SymbolKind.noConfusion hend
  | bind => exact hs

theorem Trace.endPlaced (h : Trace t s s') (hs : s.EndPlaced) : s'.EndPlaced := by
  induction h with
  | refl => exact hs
  | step _ hmove ih => exact hmove.endPlaced (ih hs)
  | block _ _ ih ihbody =>
    have hinside := ihbody (ih hs)
    unfold State.closeScope
    split <;> exact hinside

end Parse

namespace TranslationUnit

open Parse

/-- The symbol of the end stands where the lexemes end. -/
theorem span_of_endOfInput {t : SymbolTable} {lexemes : List Lexeme} {endPosition : Position}
    {u : TranslationUnit} (h : ofLexemes? t lexemes endPosition = some u) {x : Symbol}
    (hx : x ∈ u.symbols) (hend : x.kind = .endOfInput) : x.span = .empty endPosition := by
  obtain ⟨⟨names, s⟩, hprogram, rfl⟩ := Option.map_eq_some_iff.1 h
  have htrace := (Trace.advance (State.ofLexemes lexemes endPosition)).trans
    (Trace.of_program hprogram)
  have hplaced : s.EndPlaced := htrace.endPlaced fun id hend => SymbolKind.noConfusion hend
  obtain ⟨id, rfl⟩ := exists_symbol_eq_of_mem hx
  rw [hplaced id hend, htrace.conserves.endPosition]
  rfl

/-- The end of a C source stands behind its last character. -/
theorem span_of_endOfInput_ofSource {source : String} {x : Symbol}
    (hx : x ∈ (ofSource source).symbols) (hend : x.kind = .endOfInput) :
    x.span = .empty (Position.after {} source.toList) := by
  rw [← Lexicon.position_lexemes]
  exact span_of_endOfInput (Option.some_get _).symm hx hend

end TranslationUnit

namespace Lexer

open TranslationUnit

theorem eq_ofOffset_length_iff {cs : List Char} {o : Nat} (h : o ≤ cs.length) :
    Position.ofOffset cs o = Position.after {} cs ↔ o = cs.length := by
  have hafter : Position.ofOffset cs cs.length = Position.after {} cs := by
    have hread := Position.after_ofOffset (Nat.zero_le cs.length) (Nat.le_refl _)
    rw [List.take_length, List.drop_zero] at hread
    exact hread.symm
  rw [← hafter]
  exact ⟨Position.ofOffset_injective h (Nat.le_refl _), congrArg _⟩

/-- A lexer that has been taken to its end stands where its rules end. -/
theorem endsAt_of_toEnd {E : PatternEngine} (hE : E.LeftmostFirst) {source : String}
    {rs : List (Rule α)} {results : List α} {l : Lexer E α}
    (h : (ofRules source rs : Lexer E α).toEnd = .ok (results, l)) :
    ∃ regex o, E.read? (ofRules source rs : Lexer E α).writtenRules = .ok regex ∧
      EndsAt regex rs.length source.toList o ∧ l.position = .ofOffset source.toList o := by
  rw [toEnd] at h
  cases hstart : (ofRules source rs : Lexer E α).start with
  | error e =>
    rw [hstart] at h
    cases h
  | ok l₁ =>
    rw [hstart] at h
    have hcollect : collect l₁.left l₁ = (results, l) := Except.ok.inj h
    obtain ⟨hstarted, hphase⟩ := follows_start hstart
    obtain ⟨hfollows, hfinished⟩ := follows_collect hphase (Nat.le_refl l₁.left)
    have hstanding := ((Standing.ofRules source rs).start hstart).collect hE l₁.left
    rw [hcollect] at hfollows hfinished hstanding
    have hsame : l.ruleSet = (ofRules source rs : Lexer E α).ruleSet :=
      (hstarted.trans hfollows).ruleSet
    obtain ⟨regex, o, hread, hends, hposition⟩ := hstanding.endsAt hfinished
    rw [writtenRules_congr hsame] at hread
    rw [length_rules_congr hsame] at hends
    exact ⟨regex, o, hread, hends, hposition⟩

/-- Once a lexer gives no further result, it stands where its rules end in the text, and so does the
end of the input of a text that has been read with it. This is the end of the text if and only if
the rules get there. -/
theorem ends_behind_lastMatch {E : PatternEngine} (hE : E.LeftmostFirst) (source : String) :
    (∀ (α : Type) (rs : List (Rule α)) (before : List (Call α)),
      let l : Lexer E α := (ofRules source rs).after before
      let l' := (l.call .lex).2
      (l.call .lex).1 = .ok (.next none) →
        ∃ regex o, E.read? l'.writtenRules = .ok regex ∧
          EndsAt regex l'.rules.length source.toList o ∧
          l'.position = .ofOffset source.toList o ∧
          (l'.position = Position.after {} source.toList ↔ o = source.toList.length)) ∧
    ∀ (rs : List (Rule Lexeme)) (t : SymbolTable) (u : TranslationUnit),
      let l : Lexer E Lexeme := ofRules source rs
      ofLexer? t l = .ok (some u) →
        ∃ regex o, E.read? l.writtenRules = .ok regex ∧
          EndsAt regex rs.length source.toList o ∧
          ∀ x ∈ u.symbols, x.kind = .endOfInput → x.span = .empty (.ofOffset source.toList o) := by
  constructor
  · intro α rs before l l' hnone
    have hstanding : Standing source.toList l' :=
      ((Standing.ofRules source rs).after hE before).call hE .lex
    obtain ⟨regex, o, hread, hends, hposition⟩ := hstanding.endsAt (phase_of_call_lex hnone)
    exact ⟨regex, o, hread, hends, hposition, hposition ▸ eq_ofOffset_length_iff hends.le⟩
  · intro rs t u l hu
    rw [ofLexer?] at hu
    cases hend : l.toEnd with
    | error e =>
      rw [hend] at hu
      cases hu
    | ok drained =>
      rw [hend] at hu
      obtain ⟨regex, o, hread, hends, hposition⟩ := endsAt_of_toEnd hE hend
      refine ⟨regex, o, hread, hends, fun x hx hkind => ?_⟩
      rw [span_of_endOfInput (Except.ok.inj hu) hx hkind, hposition]

/-- With one rule, which claims an `a`, the lexer ends in `ab` behind the first character. A forward
declaration is claimed as a whole by the rules of C sources. -/
theorem ends_behind_lastMatch_countAs :
    let l : Lexer Pattern.engine Nat := (ofRules "ab" []).after [countAs, .lex]
    (l.call .lex).1 = .ok (.next none) ∧
    (∃ regex, Pattern.engine.read? (l.call .lex).2.writtenRules = .ok regex ∧
      EndsAt regex (l.call .lex).2.rules.length "ab".toList 1) ∧
    ∃ regex o, Pattern.engine.read? (Lexicon.lexer "struct a;").writtenRules = .ok regex ∧
      EndsAt regex Lexicon.entries.length "struct a;".toList o ∧
      ∀ x ∈ (ofSource "struct a;").symbols, x.kind = .endOfInput →
        x.span = .empty (.ofOffset "struct a;".toList o) := by
  have hends := ends_behind_lastMatch Pattern.leftmostFirst_engine
  have hcounted : let l : Lexer Pattern.engine Nat := (ofRules "ab" []).after [countAs, .lex]
      (l.call .lex).1 = .ok (.next none) ∧
        (l.call .lex).2.position = .ofOffset "ab".toList 1 := by
    decide +kernel
  have hcount := (hends "ab").1 Nat [] [countAs, .lex]
  -- nothing but these two facts is known of the lexer from here on
  generalize (ofRules "ab" [] : Lexer Pattern.engine Nat).after [countAs, .lex] = l at *
  obtain ⟨hnone, hplace⟩ := hcounted
  obtain ⟨regex, o, hread, hat, hposition, -⟩ := hcount hnone
  obtain rfl : o = 1 :=
    Position.ofOffset_injective hat.le (by decide) (hposition.symm.trans hplace)
  have hsource := (hends "struct a;").2 (Lexicon.entries.map Lexicon.Entry.toRule) _ _
    (ofLexer?_lexer "struct a;")
  rw [List.length_map] at hsource
  exact ⟨hnone, ⟨regex, hread, hat⟩, hsource⟩

/-- A lexer that is at its end need not be at the end of the text. -/
theorem position_of_unclaimedEnd :
    let l : Lexer Pattern.engine Nat := (ofRules "ab" []).after [countAs, .lex]
    (l.call .lex).1 = .ok (.next none) ∧
      (l.call .lex).2.position ≠ Position.after {} "ab".toList := by
  decide +kernel

end Lexer

end CStruct
