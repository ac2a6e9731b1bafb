import CStruct.Proofs.Lexicon.Lexing

/-!
# How lexemes are spelled

What the kind of a lexeme of a source tells about its text.
-/

namespace CStruct

/-- The texts that a lexeme of a source can have, by its kind. -/
def Lexeme.IsSpelled (l : Lexeme) : Prop :=
  match l.kind with
  | .comment => True
  | .number => l.text ≠ "" ∧ l.text.toList.all Char.isDigit = true
  | .type => l.text ∈ Lexicon.typeKeywords
  | .name => ∃ c cs, l.text = String.ofList (c :: cs) ∧ Scanner.isNameStart c = true ∧
      cs.all Scanner.isNameRest = true
  | .operator => ∃ c ∈ Scanner.operators, l.text = String.ofList [c]

namespace Lexeme.IsSpelled

variable {l : Lexeme}

theorem of_number (h : l.IsSpelled) (hkind : l.kind = .number) :
    l.text ≠ "" ∧ l.text.toList.all Char.isDigit = true := by
  rw [IsSpelled, hkind] at h
  exact h

theorem of_type (h : l.IsSpelled) (hkind : l.kind = .type) : l.text ∈ Lexicon.typeKeywords := by
  rw [IsSpelled, hkind] at h
  exact h

theorem of_name (h : l.IsSpelled) (hkind : l.kind = .name) :
    ∃ c cs, l.text = String.ofList (c :: cs) ∧ Scanner.isNameStart c = true ∧
      cs.all Scanner.isNameRest = true := by
  rw [IsSpelled, hkind] at h
  exact h

theorem of_operator (h : l.IsSpelled) (hkind : l.kind = .operator) :
    ∃ c ∈ Scanner.operators, l.text = String.ofList [c] := by
  rw [IsSpelled, hkind] at h
  exact h

/-- What begins neither like a number nor like a word is an operator. -/
theorem kind_eq_operator (h : l.IsSpelled) (hcomment : l.isComment = false)
    (hhead : l.text.toList.head?.any (fun c => c.isDigit || Scanner.isNameStart c) = false) :
    l.kind = .operator := by
  have hneither : ∀ c ∈ l.text.toList.head?, c.isDigit = false ∧ Scanner.isNameStart c = false :=
    fun c hc => by
      rw [Option.mem_def.1 hc, Option.any_some] at hhead
      exact Bool.or_eq_false_iff.1 hhead
  cases hkind : l.kind with
  | operator => rfl
  | comment =>
    rw [isComment, hkind] at hcomment
    cases hcomment
  | number =>
    obtain ⟨hne, hdigits⟩ := h.of_number hkind
    cases htext : l.text.toList with
    | nil => exact absurd (String.toList_inj.1 htext) hne
    | cons c cs =>
      rw [htext] at hdigits hneither
      rw [List.all_cons, (hneither c rfl).1] at hdigits
      cases hdigits
  | type =>
    -- every type keyword is spelled with letters
    have hall : ∀ word ∈ Lexicon.typeKeywords, word.toList.head?.any Scanner.isNameStart = true := by
      decide
    obtain ⟨c, hc, hstart⟩ := (Option.any_eq_true _ _).1 (hall l.text (h.of_type hkind))
    rw [(hneither c hc).2] at hstart
    cases hstart
  | name =>
    obtain ⟨c, cs, htext, hstart, -⟩ := h.of_name hkind
    rw [htext, String.toList_ofList] at hneither
    rw [(hneither c rfl).2] at hstart
    cases hstart

end Lexeme.IsSpelled

namespace Scanner

theorem take_runLength (p : Char → Bool) (cs : List Char) :
    cs.take (runLength p cs) = cs.takeWhile p :=
  (List.prefix_iff_eq_take.1 (List.takeWhile_prefix p)).symm

theorem take_run? {p : Char → Bool} {cs : List Char} {n : Nat} (h : n ∈ run? p cs) :
    cs.take n ≠ [] ∧ (cs.take n).all p = true := by
  have hpos := pos_of_mem_run? h
  have hle := le_of_mem_run? h
  unfold run? at h
  split at h
  · cases h
  · cases h
    rw [take_runLength]
    refine ⟨fun hnil => ?_, List.all_takeWhile⟩
    rw [runLength, hnil] at hpos
    exact absurd hpos (Nat.lt_irrefl 0)

/-- A piece that makes a lexeme is spelled as the lexeme has to be. -/
theorem isSpelled_of_mem_measures {before : Option Char} {text : List Char} {kind : LexemeKind}
    {n? : Option Nat} (hm : (some kind, n?) ∈ measures before text) {n : Nat} (hn : n ∈ n?)
    (span : Span) : Lexeme.IsSpelled ⟨kind, String.ofList (text.take n), span⟩ := by
  simp only [measures, List.mem_cons, List.not_mem_nil, or_false, Prod.mk.injEq,
    Option.some_inj, reduceCtorEq, false_and] at hm
  -- one case for each kind of lexeme, in the order of `measures`; comments may be anything
  rcases hm with ⟨rfl, rfl⟩ | ⟨rfl, rfl⟩ | ⟨rfl, rfl⟩ | ⟨rfl, rfl⟩ | ⟨rfl, rfl⟩ | ⟨rfl, rfl⟩
  · trivial
  · trivial
  · obtain ⟨hne, hall⟩ := take_run? hn
    refine ⟨fun hempty => hne ?_, by rw [String.toList_ofList]; exact hall⟩
    rw [← String.toList_ofList (l := text.take n), show String.ofList (text.take n) = "" from hempty]
    rfl
  · obtain ⟨word, hword, rfl⟩ := Option.map_eq_some_iff.1 hn
    obtain ⟨hmem, hstands⟩ := mem_typeKeywords_of_mem_keyword? hword
    have hstart := List.isPrefixOf_iff_prefix.1 (Bool.and_eq_true_iff.1 hstands).1
    have htake : text.take word.length = word.toList := by
      rw [← String.length_toList]
      exact (List.prefix_iff_eq_take.1 hstart).symm
    show String.ofList (text.take word.length) ∈ _
    rw [htake, String.ofList_toList]
    exact hmem
  · unfold name? at hn
    split at hn
    · cases hn
    · rename_i c cs
      split at hn
      · rename_i hc
        cases hn
        refine ⟨c, cs.takeWhile isNameRest, ?_, hc, List.all_takeWhile⟩
        show String.ofList ((c :: cs).take (runLength isNameRest cs + 1)) = _
        rw [List.take_succ_cons, take_runLength]
      · cases hn
  · unfold operator? at hn
    split at hn
    · cases hn
    · rename_i c cs
      split at hn
      · rename_i hc
        cases hn
        exact ⟨c, hc, rfl⟩
      · cases hn

/-- The scanner goes through the text by pieces, so the induction is on what is left of it. -/
theorem isSpelled_of_mem_scan {before : Option Char} {p : Position} {text : List Char} {l : Lexeme}
    (h : l ∈ scan before p text) : l.IsSpelled := by
  induction hlen : text.length using Nat.strongRecOn generalizing before p text with
  | ind k ih =>
    by_cases htext : text = []
    · rw [htext, scan] at h
      cases h
    · have hpos := pieceAt_pos before text
      have hlt : (text.drop (pieceAt before text).2).length < k := by
        have := List.length_pos_iff.2 htext
        rw [List.length_drop]
        omega
      rw [scan_of_ne_nil before p htext] at h
      dsimp only at h
      split at h
      · rename_i kind hkind
        rcases List.mem_cons.1 h with rfl | h
        · rcases pieceAt_cases before text with heq | ⟨⟨kind?, n?⟩, hm, n, hn, heq⟩
          · rw [heq] at hkind
            cases hkind
          · rw [heq] at hkind ⊢
            have hkind : kind? = some kind := hkind
            subst hkind
            exact isSpelled_of_mem_measures hm hn _
        · exact ih _ hlt h rfl
      · exact ih _ hlt h rfl

end Scanner

/-- The lexemes of a source that are no comments. -/
def Lexicon.tokens (source : String) : List Lexeme :=
  (Lexicon.lexemes source).1.filter fun l => !l.isComment

theorem Lexicon.isSpelled_of_mem_lexemes {source : String} {l : Lexeme}
    (h : l ∈ (Lexicon.lexemes source).1) : l.IsSpelled := by
  rw [fst_lexemes] at h
  exact Scanner.isSpelled_of_mem_scan h

end CStruct
