import CStruct.Proofs.Grammar.Complete
import CStruct.Proofs.Grammar.Sound
import CStruct.Proofs.Lexicon.Spelling
import CStruct.TranslationUnit.Basic

/-!
# The sources without errors

A source is read without errors exactly if the grammar derives its lexemes, comments apart. Two kinds
of sources are left out: those in which a name is spelled like a type, which takes a letter before it
that no name can begin with, and those in which `struct` stands where a name is declared.
-/

namespace CStruct

open SymbolTable Grammar

/-! ## The lexemes of a source -/

theorem get?_of_not_mem_keys {text : String} (h : text ∉ cStructs.entries.keys) :
    cStructs.get? text = none := by
  have hlookup : cStructs.entries.entries.lookup text = none := by
    rw [List.lookup_eq_none_iff]
    intro entry hentry
    rw [bne_iff_ne]
    rintro rfl
    exact h (List.mem_map_of_mem hentry)
  rw [SymbolTable.get?, find?, Dictionary.get?, hlookup]
  rfl

/-- A lexeme of a source is ordinary unless it is a name that is spelled like a type. -/
theorem Lexeme.IsSpelled.ordinary {l : Lexeme} (h : l.IsSpelled) (hcomment : l.isComment = false)
    (hname : l.kind = .name → l.text ∉ Lexicon.typeKeywords) : l.Ordinary := by
  unfold Lexeme.Ordinary
  cases hkind : l.kind with
  | comment =>
    rw [Lexeme.isComment, hkind] at hcomment
    cases hcomment
  | number => trivial
  | type =>
    have hall : ∀ word ∈ Lexicon.typeKeywords, ∃ p ∈ PrimitiveType.all, p.keyword = word := by decide
    obtain ⟨p, -, hp⟩ := hall l.text (h.of_type hkind)
    exact ⟨p, hp⟩
  | operator =>
    have hall : Scanner.operators.all (fun c => String.ofList [c] ∈ cOperators) = true := by decide
    obtain ⟨c, hc, htext⟩ := h.of_operator hkind
    show l.text ∈ cOperators
    rw [htext]
    exact of_decide_eq_true (List.all_eq_true.1 hall c hc)
  | name =>
    obtain ⟨c, cs, htext, hc, -⟩ := h.of_name hkind
    -- of the spellings in the table, only the keywords can be names
    have hall : ∀ key ∈ cStructs.entries.keys, key.toList.head?.any Scanner.isNameStart = true →
        key = Parse.State.structKeyword ∨ key ∈ Lexicon.typeKeywords := by decide
    by_cases hmem : l.text ∈ cStructs.entries.keys
    · have hstart : l.text.toList.head?.any Scanner.isNameStart = true := by
        rw [htext, String.toList_ofList]
        exact hc
      exact .inl ((hall l.text hmem hstart).resolve_right (hname hkind))
    · exact .inr (get?_of_not_mem_keys hmem)

/-! ## The whole source -/

theorem meaningful_ofLexemes (lexemes : List Lexeme) (endPosition : Position) :
    (Parse.State.ofLexemes lexemes endPosition).Meaningful := by
  intro k name id hk
  have hscope : (Parse.State.ofLexemes lexemes endPosition).scopeAt k = {} := by
    cases k <;> rfl
  rw [hscope] at hk
  cases hk

open Parse.State in
/-- The state in which reading a source begins. -/
theorem reads_ofLexemes {lexemes : List Lexeme} (endPosition : Position)
    (h : Ordinary (lexemes.filter fun l => !l.isComment)) :
    ((Parse.State.ofLexemes lexemes endPosition).advance cStructs).Reads
        (lexemes.filter fun l => !l.isComment) ∧
      ((Parse.State.ofLexemes lexemes endPosition).advance cStructs).isGlobal = true ∧
      ((Parse.State.ofLexemes lexemes endPosition).advance cStructs).hasErrors = false := by
  have h₁ := passes_advance_of_none (s := Parse.State.ofLexemes lexemes endPosition) rfl
    (meaningful_ofLexemes lexemes endPosition) rfl h
  refine ⟨h₁.reads, ?_, h₁.keeps.hasErrors⟩
  rw [Parse.State.isGlobal, h₁.keeps.outer]
  rfl

/-- A translation unit is what has been made of a source when its end has been reached. -/
theorem TranslationUnit.ofLexemes_eq_ofState {table : SymbolTable} (h : table.Ends)
    (lexemes : List Lexeme) (endPosition : Position) :
    ∃ names s', Parse.program table
        ((Parse.State.ofLexemes lexemes endPosition).advance table).fuel
        ((Parse.State.ofLexemes lexemes endPosition).advance table) = some (names, s') ∧
      ofLexemes h lexemes endPosition = ofState names s' := by
  obtain ⟨u, hu⟩ := Option.isSome_iff_exists.1 (isSome_ofLexemes? h lexemes endPosition)
  obtain ⟨⟨names, s'⟩, hs', rfl⟩ := Option.map_eq_some_iff.1 hu
  exact ⟨names, s', hs', Option.get_of_eq_some _ hu⟩

/-- Reading without errors is deriving. -/
theorem hasErrors_eq_false_iff_program (source : String)
    (hname : ∀ l ∈ Lexicon.tokens source, l.kind = .name → l.text ∉ Lexicon.typeKeywords)
    (hstruct : (Lexicon.tokens source).IsChain fun l l' => l.Declares → ¬l'.IsStructKeyword) :
    (TranslationUnit.ofSource source).hasErrors = false ↔ Program (Lexicon.tokens source) := by
  have hordinary : Parse.State.Ordinary (Lexicon.tokens source) := by
    refine ⟨fun l hl => ?_, hstruct⟩
    obtain ⟨hmem, hcomment⟩ := List.mem_filter.1 hl
    exact (Lexicon.isSpelled_of_mem_lexemes hmem).ordinary (by simpa using hcomment) (hname l hl)
  have hsource : TranslationUnit.ofSource source = TranslationUnit.ofLexemes ends_cStructs
      (Lexicon.lexemes source).1 (Lexicon.lexemes source).2.position := rfl
  obtain ⟨names, s', hs', hunit⟩ := TranslationUnit.ofLexemes_eq_ofState ends_cStructs
    (Lexicon.lexemes source).1 (Lexicon.lexemes source).2.position
  obtain ⟨hreads, hglobal, hclean⟩ := reads_ofLexemes (Lexicon.lexemes source).2.position hordinary
  rw [hsource, hunit]
  show s'.hasErrors = false ↔ _
  constructor
  · intro herrors
    exact Parse.program_derives hreads hglobal hs' herrors
  · intro hprogram
    rw [(Parse.passes_program hprogram hreads hglobal hs').keeps.hasErrors]
    exact hclean

theorem program_of_array_member : Program (Lexicon.tokens "struct p \x7b int x[3]; \x7d;") :=
  (hasErrors_eq_false_iff_program "struct p \x7b int x[3]; \x7d;" (by decide +kernel)
    (by decide +kernel)).1 (by decide +kernel)

end CStruct
