import CStruct.Proofs.Redundant.Named
import CStruct.Proofs.Redundant.Summaries

/-!
# Forward declarations are harmless

In a source without remarks, a struct that is declared there may be declared ahead once more,
between any two statements outside all structs, before the first or after the last one. This brings
no remark and makes no difference to what is told of the structs.
-/

namespace CStruct.TranslationUnit

open SymbolTable Parse Parse.State

variable {source pre post : String} {n : String} {names names' : List SymbolId} {e e' s : State}
  {fuel fuel' : Nat}

/-! ## Places -/

/-- The place behind `pre` lies in no lexeme and in no comment, and between two statements outside
all structs, before the first or after the last one. -/
structure TopLevelPlace (pre post : String) : Prop where
  outside : ∀ l ∈ (Lexicon.lexemes (pre ++ post)).1,
    l.span.stop ≤ Position.after {} pre.toList ∨ Position.after {} pre.toList ≤ l.span.start
  between : ∃ s, Relation.ReflTransGen (Follows cStructs) (.ofSource (pre ++ post)) s ∧
    (∀ id < s.token, (s.symbol id).span.stop ≤ Position.after {} pre.toList) ∧
    Position.after {} pre.toList ≤ s.current.span.start

/-- The start of a source is such a place. -/
theorem topLevelPlace_start (source : String) : TopLevelPlace "" source where
  outside := fun l hl => by
    rw [Lexicon.fst_lexemes] at hl
    exact .inr (Scanner.le_start_of_mem_scan hl)
  between := by
    refine ⟨_, .refl, ?_, ?_⟩
    · rw [State.ofSource, token_advance rfl]
      exact fun _ hid => absurd hid (Nat.not_lt_zero _)
    · exact Position.le_iff.2 (by simp; omega)

/-- The state behind the first statements. -/
def readStatements : Nat → State → Option State
  | 0, s => some s
  | count + 1, s =>
    if s.atClose then none
    else
      ((statement cStructs (bodyReader cStructs s.fuel) s).map Prod.snd).bind (readStatements count)

theorem follows_of_readStatements {count : Nat} {s s' : State}
    (h : readStatements count s = some s') : Relation.ReflTransGen (Follows cStructs) s s' := by
  induction count generalizing s with
  | zero =>
    cases h
    exact .refl
  | succ count ih =>
    rw [readStatements] at h
    split at h
    · cases h
    · rename_i hopen
      obtain ⟨s₁, hfirst, hrest⟩ := Option.bind_eq_some_iff.1 h
      obtain ⟨⟨name?, s₂⟩, hread, rfl⟩ := Option.map_eq_some_iff.1 hfirst
      exact .head ⟨Bool.eq_false_iff.2 hopen, s.fuel, name?, hread⟩ (ih hrest)

/-- Where a place stands can be found out by reading. -/
theorem TopLevelPlace.of_readStatements (count : Nat)
    (outside : ∀ l ∈ (Lexicon.lexemes (pre ++ post)).1,
      l.span.stop ≤ Position.after {} pre.toList ∨ Position.after {} pre.toList ≤ l.span.start)
    (between : (readStatements count (.ofSource (pre ++ post))).any (fun s =>
      (∀ id < s.token, (s.symbol id).span.stop ≤ Position.after {} pre.toList) ∧
        Position.after {} pre.toList ≤ s.current.span.start) = true) : TopLevelPlace pre post := by
  obtain ⟨s, hs, hplace⟩ := (Option.any_eq_true _ _).1 between
  exact ⟨outside, s, follows_of_readStatements hs, of_decide_eq_true hplace⟩

/-- What has been read and what is to come make up the source. -/
theorem ledger_of_follows
    (hfollows : Relation.ReflTransGen (Follows cStructs) (.ofSource source) s) :
    s.ledger = (Lexicon.tokens source).map (fun l => (l.text, l.span)) ++
      [(endId, .empty (Lexicon.lexemes source).2.position)] := by
  have hstart := outside_ofSource source
  obtain ⟨-, -, hrun⟩ := hstart.follows hfollows
  have hchanges : Changes cStructs (.ofLexemes (Lexicon.lexemes source).1
      (Lexicon.lexemes source).2.position) s :=
    .trans (.single (.advance _)) (hrun.changes hstart.toPoised)
  rw [hchanges.conserves.ledger, ledger_ofLexemes]
  rfl

/-- So many symbols have been read as there are lexemes before the place. -/
theorem token_eq_length {ls ls' : List Lexeme} {p : Position}
    (htokens : Lexicon.tokens source = ls ++ ls') (hbefore : ∀ l ∈ ls, l.span.stop ≤ p)
    (hbehind : ∀ l ∈ ls', p ≤ l.span.start)
    (hfollows : Relation.ReflTransGen (Follows cStructs) (.ofSource source) s)
    (hread : ∀ id < s.token, (s.symbol id).span.stop ≤ p) (hcurrent : p ≤ s.current.span.start) :
    s.token = ls.length := by
  have hs := ((outside_ofSource source).follows hfollows).1.steady
  have hledger := ledger_of_follows hfollows
  rw [htokens, List.map_append, List.append_assoc] at hledger
  -- no lexeme both starts behind the place and ends before it
  have hapart {l : Lexeme} (hl : l ∈ ls ++ ls') (hstart : p ≤ l.span.start) : ¬l.span.stop ≤ p := by
    rw [← htokens, Lexicon.tokens, Lexicon.fst_lexemes] at hl
    have hlt := Scanner.start_lt_stop_of_mem_scan (List.mem_filter.1 hl).1
    exact fun hstop => Position.lt_irrefl _
      (Position.lt_of_lt_of_le hlt (Position.le_trans hstop hstart))
  rcases Nat.lt_trichotomy s.token ls.length with hlt | heq | hgt
  · -- the token would stand before the place
    have hget := getElem?_ledger hs.token_lt
    rw [hledger, List.getElem?_append_left (by simpa using hlt), List.getElem?_map,
      List.getElem?_eq_getElem hlt] at hget
    have hspan : ls[s.token].span = s.current.span := congrArg Prod.snd (Option.some.inj hget)
    have hmem := List.getElem_mem hlt
    exact absurd (hbefore _ hmem) (hapart (List.mem_append_left ls' hmem) (hspan ▸ hcurrent))
  · exact heq
  · have hget := getElem?_ledger (Nat.lt_trans hgt hs.token_lt)
    rw [hledger, List.getElem?_append_right (by rw [List.length_map]), List.length_map,
      Nat.sub_self] at hget
    cases ls' with
    | nil =>
      -- the end would have been passed
      have hsize := congrArg List.length hledger
      simp only [State.ledger, List.length_append, List.length_map, List.length_nil,
        List.length_cons, Array.length_toList] at hsize
      have := hs.size
      omega
    | cons l ls' =>
      -- what stands behind the place would have been passed
      have hspan : l.span = (s.symbol ls.length).span := congrArg Prod.snd (Option.some.inj hget)
      have hstop := hread _ hgt
      rw [← hspan] at hstop
      exact absurd hstop (hapart (List.mem_append_right _ List.mem_cons_self)
        (hbehind l List.mem_cons_self))

/-! ## Two readings -/

/-- A name that is declared ahead at such a place leads to the same end. -/
theorem abreast_put (hn : Lexeme.IsSpelled ⟨.name, n, {}⟩) (hnamed : n ∉ Lexicon.typeKeywords)
    (hne : n ≠ structKeyword) (hplace : TopLevelPlace pre post)
    (hparted : Scanner.Parted none pre.toList post.toList)
    (hread : program cStructs fuel (.ofSource (pre ++ post)) = some (names, e))
    (hread' : program cStructs fuel' (.ofSource (pre ++ forwardText n ++ post)) =
      some (names', e'))
    (hno : NoAlias n e) (hclean : e.Clean) : ∃ k, Abreast k n e e' := by
  obtain ⟨s, hfollows, hpassed, hcurrent⟩ := hplace.between
  obtain ⟨ls, ls', htokens, hbefore, hbehind, hput⟩ := tokens_put hn hnamed hparted hplace.outside
  refine ⟨_, abreast_ofSource (get?_of_isSpelled hn hnamed hne) ?_ hput hfollows ?_ hread hread'
    hno hclean⟩
  · rw [htokens, List.map_append]
  · rw [List.length_map]
    exact token_eq_length htokens hbefore hbehind hfollows hpassed hcurrent

/-- In a source without a remark, `struct` is not declared. -/
theorem keywordAt_of_clean (hread : program cStructs fuel (.ofSource source) = some (names, e))
    (hclean : e.Clean) {id : SymbolId} (hid : (e.scopeAt 0).get? structKeyword = some id) :
    e.KeywordAt id := by
  -- some other name is put in at the start
  obtain ⟨n, hn, hnew⟩ := exists_isSpelled_notMem
    (Lexicon.typeKeywords ++ structKeyword :: e.symbols.toList.map (·.value))
  rw [List.mem_append, List.mem_cons, not_or, not_or] at hnew
  obtain ⟨hnamed, hne, hunused⟩ := hnew
  have hno : NoAlias n e := fun i hi _ hvalue => by
    refine absurd (List.mem_map.2 ⟨e.symbol i, ?_, hvalue⟩) hunused
    exact List.mem_of_getElem? (getElem?_symbols (lt_of_isDeclaration hi))
  obtain ⟨names', e', hread', -⟩ := brings_ofLexemes
    (ofLexemes?_ofSource ("" ++ forwardText n ++ source))
  rw [← String.empty_append (s := source)] at hread
  obtain ⟨k, habreast⟩ := abreast_put hn hnamed hne (topLevelPlace_start source)
    (fun h => absurd h.1 (by simp)) hread hread' hno hclean
  exact habreast.keywords.left id hid

/-- No typedef name of a struct with a tag is spelled like a struct with a body. -/
theorem noAlias_of_settled (hsettled : e.Settled fun _ => False) {d : SymbolId}
    (hd : (e.scopeAt 0).get? n = some d) (halias : (e.symbol d).isAlias = false) : NoAlias n e := by
  intro id hdeclared hid hvalue hscope
  rcases hsettled id hdeclared with ⟨k, hk, hentry⟩ | ⟨hforward, -⟩
  · cases hscope.symm.trans hk
    rw [hvalue, hd] at hentry
    cases hentry
    cases halias.symm.trans hid
  · cases hforward.isAlias.symm.trans hid

/-- A struct of a source without remarks that is not spelled like a type may be declared ahead at
each place between two statements outside all structs, before the first or after the last one,
unless the place stands directly between two characters of words: then, too, nothing is remarked,
and the same is told of the same structs. -/
theorem forward_declaration_harmless {d : SymbolId}
    (hclean : (ofSource (pre ++ post)).diagnostics.toList = [])
    (hd : d ∈ (ofSource (pre ++ post)).structs) (hvalue : ((ofSource (pre ++ post)).symbol d).value = n)
    (hnamed : n ∉ Lexicon.typeKeywords) (hplace : TopLevelPlace pre post)
    (hparted : Scanner.Parted none pre.toList post.toList) :
    (ofSource (pre ++ forwardText n ++ post)).diagnostics.toList = [] ∧
      (ofSource (pre ++ forwardText n ++ post)).summaries.Perm (ofSource (pre ++ post)).summaries := by
  obtain ⟨-, -, hnodup, hstructs⟩ := declarations_listed (ofLexemes?_ofSource (pre ++ post))
  obtain ⟨-, -, hnodup', -⟩ :=
    declarations_listed (ofLexemes?_ofSource (pre ++ forwardText n ++ post))
  obtain ⟨-, hentry, -⟩ := (hstructs d).1 hd
  rw [hvalue] at hentry
  obtain ⟨names, e, hread, hunit, -, hconsistent, -⟩ := brings_ofLexemes
    (ofLexemes?_ofSource (pre ++ post))
  obtain ⟨names', e', hread', hunit', -⟩ := brings_ofLexemes
    (ofLexemes?_ofSource (pre ++ forwardText n ++ post))
  rw [hunit] at hclean hd hvalue hnodup hentry ⊢
  rw [hunit'] at hnodup' ⊢
  obtain ⟨-, hdeclared, halias, -⟩ := mem_structs_ofState.1 hd
  have hstart := (outside_ofSource (pre ++ post)).toPoised
  have hcourse := course_statements stops_cStructs hstart (statements_of_program hread hclean).1
  have hsettled := (hcourse.run stops_cStructs hstart).settled (settled_ofLexemes _ _)
    (orderly_ofLexemes _ _) hclean
  have hspelled := (hcourse.named stops_cStructs hstart (named_ofSource _)).name d
    (lt_of_isDeclaration hdeclared) (beq_iff_eq.1 (Bool.and_eq_true_iff.1 hdeclared).1)
  rw [show (e.symbol d).value = n from hvalue] at hspelled
  -- the outermost scope holds the keyword itself under `struct`, and no struct
  have hne : n ≠ structKeyword := by
    rintro rfl
    cases (keywordAt_of_clean hread hclean hentry).isDeclaration.symm.trans hdeclared
  obtain ⟨k, habreast⟩ := abreast_put hspelled hnamed hne hplace hparted hread hread'
    (noAlias_of_settled hsettled hentry halias) hclean
  exact ⟨habreast.clean, habreast.summaries hconsistent.nested hnodup hnodup'⟩

/-- A forward declaration. -/
def declaredAhead : String := "struct a;"

/-- The struct that was declared ahead, with a typedef name. -/
def definedBehind : String := " struct a \x7b int x[2]; \x7d b;"

/-- Between a forward declaration and its struct, another one is harmless. -/
theorem forward_declaration_again :
    (ofSource (declaredAhead ++ forwardText "a" ++ definedBehind)).diagnostics.toList = [] ∧
      (ofSource (declaredAhead ++ forwardText "a" ++ definedBehind)).summaries.Perm
        [⟨"a", some "b", [⟨"x", some "int", some "2"⟩]⟩] := by
  obtain ⟨hclean, hd, hvalue, hsummaries, houtside, hbetween⟩ :
      (ofSource (declaredAhead ++ definedBehind)).diagnostics.toList = [] ∧
      4 ∈ (ofSource (declaredAhead ++ definedBehind)).structs ∧
      ((ofSource (declaredAhead ++ definedBehind)).symbol 4).value = "a" ∧
      (ofSource (declaredAhead ++ definedBehind)).summaries =
        [⟨"a", some "b", [⟨"x", some "int", some "2"⟩]⟩] ∧
      (∀ l ∈ (Lexicon.lexemes (declaredAhead ++ definedBehind)).1,
        l.span.stop ≤ Position.after {} declaredAhead.toList ∨
          Position.after {} declaredAhead.toList ≤ l.span.start) ∧
      (readStatements 1 (.ofSource (declaredAhead ++ definedBehind))).any (fun s =>
        (∀ id < s.token, (s.symbol id).span.stop ≤ Position.after {} declaredAhead.toList) ∧
          Position.after {} declaredAhead.toList ≤ s.current.span.start) = true := by
    decide +kernel
  have hharmless := forward_declaration_harmless hclean hd hvalue (by decide)
    (.of_readStatements 1 houtside hbetween) fun hparts => absurd hparts.2 (by decide +kernel)
  rw [hsummaries] at hharmless
  exact hharmless

/-- Two structs, one of them called `int`, and the first character of a word. -/
def wordsBefore : String := "struct a\x7b\x7d;struct éint\x7b\x7d;é"

/-- The rest of the word, which makes up the spelling of a type with the next one. -/
def wordsBehind : String := "unsigned int struct b\x7b\x7d;"

/-- Where it would part a word from a type keyword, a forward declaration is not harmless. -/
theorem forward_declaration_parts_word : ¬∀ (pre post n : String) (d : SymbolId),
    (ofSource (pre ++ post)).diagnostics.toList = [] → d ∈ (ofSource (pre ++ post)).structs →
      ((ofSource (pre ++ post)).symbol d).value = n → n ∉ Lexicon.typeKeywords →
        TopLevelPlace pre post →
          (ofSource (pre ++ forwardText n ++ post)).diagnostics.toList = [] ∧
            (ofSource (pre ++ forwardText n ++ post)).summaries.Perm
              (ofSource (pre ++ post)).summaries := by
  intro h
  obtain ⟨hclean, hd, hvalue, houtside, hbetween, hremark⟩ :
      (ofSource (wordsBefore ++ wordsBehind)).diagnostics.toList = [] ∧
      1 ∈ (ofSource (wordsBefore ++ wordsBehind)).structs ∧
      ((ofSource (wordsBefore ++ wordsBehind)).symbol 1).value = "a" ∧
      (∀ l ∈ (Lexicon.lexemes (wordsBefore ++ wordsBehind)).1,
        l.span.stop ≤ Position.after {} wordsBefore.toList ∨
          Position.after {} wordsBefore.toList ≤ l.span.start) ∧
      (readStatements 2 (.ofSource (wordsBefore ++ wordsBehind))).any (fun s =>
        (∀ id < s.token, (s.symbol id).span.stop ≤ Position.after {} wordsBefore.toList) ∧
          Position.after {} wordsBefore.toList ≤ s.current.span.start) = true ∧
      (ofSource (wordsBefore ++ forwardText "a" ++ wordsBehind)).diagnostics.toList ≠ [] := by
    decide +kernel
  have hplace : TopLevelPlace wordsBefore wordsBehind := .of_readStatements 2 houtside hbetween
  exact hremark (h wordsBefore wordsBehind "a" 1 hclean hd hvalue (by decide) hplace).1

end CStruct.TranslationUnit
