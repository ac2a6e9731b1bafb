import CStruct.Proofs.Spacing.Respaced
import CStruct.Proofs.Spacing.Unplaced

/-!
# Spacing is transparent

However a source is spaced, it has the same lexemes, each wherever it stands, and so the same is
declared in it. What has to stay as it is are the spaces in type keywords: with another blank in its
place, a keyword falls apart into two words, and the member that it declares gets another type.
-/

namespace CStruct

open Scanner

/-! ## Keywords in two texts -/

namespace Scanner

variable {before before' : Option Char} {text text' : List Char} {word : String}

theorem before_of_mem_keyword? (h : word ∈ keyword? before text) :
    before.any Text.isWordChar = false := by
  unfold keyword? at h
  split at h
  · cases h
  · rename_i hbefore
    exact Bool.eq_false_iff.2 hbefore

/-- What is found is the longest of the keywords that stand there. -/
theorem exists_mem_keyword? (hbefore : before.any Text.isWordChar = false)
    (hword : word ∈ Lexicon.typeKeywords) (hstands : standsAlone text word = true) :
    ∃ longest ∈ keyword? before text, word.length ≤ longest.length := by
  have hmem : word ∈ Lexicon.typeKeywords.filter (standsAlone text) :=
    List.mem_filter.2 ⟨hword, hstands⟩
  unfold keyword?
  rw [hbefore, if_neg Bool.false_ne_true]
  cases hmax : (Lexicon.typeKeywords.filter (standsAlone text)).argmax String.length with
  | none => simp [List.argmax_eq_none.1 hmax] at hmem
  | some longest => exact ⟨longest, rfl, List.le_of_mem_argmax hmem hmax⟩

theorem startsWith_of_standsAlone (h : standsAlone text word = true) : word.toList <+: text :=
  List.isPrefixOf_iff_prefix.1 (Bool.and_eq_true_iff.1 h).1

/-- A keyword that is found in either text and stands in the other one is found there as well. -/
theorem keyword?_eq (hbefore : before'.any Text.isWordChar = before.any Text.isWordChar)
    (h : ∀ word ∈ keyword? before text, standsAlone text' word = true)
    (h' : ∀ word ∈ keyword? before' text', standsAlone text word = true) :
    keyword? before' text' = keyword? before text := by
  cases hfound : keyword? before text with
  | none =>
    refine Option.eq_none_iff_forall_not_mem.2 fun word hword => ?_
    obtain ⟨longest, hlongest, -⟩ := exists_mem_keyword?
      (hbefore ▸ before_of_mem_keyword? hword)
      (mem_typeKeywords_of_mem_keyword? hword).1 (h' word hword)
    rw [hfound] at hlongest
    cases hlongest
  | some word =>
    obtain ⟨hmem, hstands⟩ := mem_typeKeywords_of_mem_keyword? hfound
    obtain ⟨word', hword', hle⟩ := exists_mem_keyword?
      (hbefore.trans (before_of_mem_keyword? hfound)) hmem (h word hfound)
    obtain ⟨longest, hlongest, hle'⟩ := exists_mem_keyword? (before_of_mem_keyword? hfound)
      (mem_typeKeywords_of_mem_keyword? hword').1 (h' word' hword')
    obtain rfl : word = longest := Option.some_inj.1 (hfound.symm.trans hlongest)
    -- both stand at the start of one text, and neither is longer
    have hbegins : word.toList <+: word'.toList := List.prefix_of_prefix_length_le
      (startsWith_of_standsAlone hstands) (startsWith_of_standsAlone (h' word' hword'))
      (by rwa [String.length_toList, String.length_toList])
    rw [hword', String.toList_inj.1 (hbegins.eq_of_length_le
      (by rwa [String.length_toList, String.length_toList]))]

/-- A keyword that is found is claimed, unless a comment begins there. -/
theorem pieceAt_keyword (hblock : blockComment? text = none) (hline : lineComments? text = none)
    (hword : word ∈ keyword? before text) : pieceAt before text = (some .type, word.length) := by
  obtain ⟨hmem, hstands⟩ := mem_typeKeywords_of_mem_keyword? hword
  have hnumber : run? Char.isDigit text = none := by
    have hall : ∀ word ∈ Lexicon.typeKeywords,
        word.toList.head?.any (fun c => !c.isDigit) = true := by decide
    have hdigit := hall word hmem
    obtain ⟨rest, rfl⟩ := startsWith_of_standsAlone hstands
    cases hchars : word.toList with
    | nil =>
      rw [hchars] at hdigit
      cases hdigit
    | cons c cs =>
      rw [hchars, List.head?_cons, Option.any_some, Bool.not_eq_true'] at hdigit
      exact Rendering.no_run hdigit
  rw [pieceAt, measures, hblock, hline, hnumber, hword]
  rfl

/-- A name is measured from its first character. -/
theorem name?_cons (c : Char) (cs : List Char) :
    name? (c :: cs) = if isNameStart c then some (runLength isNameRest (c :: cs)) else none := by
  rw [name?]
  split
  · rename_i hc
    rw [Rendering.runLength_cons (Rendering.isNameRest_of_isNameStart hc)]
  · rfl

end Scanner

/-- No comment begins here, and a keyword that begins here has all its blanks kept. -/
structure Plain (kept : Position → Prop) (before : Option Char) (p : Position) (text : List Char) :
    Prop where
  block : blockComment? text = none
  line : lineComments? text = none
  keyword : ∀ word ∈ keyword? before text, ∀ r, p ≤ r → r < p.after word.toList → kept r

/-! ## The same piece in both texts -/

namespace Respaced

variable {kept kept' : Position → Prop} {p q : Position} {u v : List Char}

theorem Begin.standsAlone {word : String} (h : Begin kept kept' p q u v word.length) :
    Scanner.standsAlone v word = Scanner.standsAlone u word := by
  obtain ⟨w, u', v', hlength, rfl, rfl, hrest⟩ := h
  have hstart (t : List Char) : startsWith word (w ++ t) = (word.toList == w) := by
    rw [startsWith, Bool.eq_iff_iff, List.isPrefixOf_iff_prefix, List.prefix_iff_eq_take,
      String.length_toList, ← hlength, List.take_left, beq_iff_eq]
  have hfollow : v'.head?.any Text.isWordChar = u'.head?.any Text.isWordChar :=
    (hrest.any_head? fun _ hc => Rendering.isWordChar_of_isBlank hc).symm
  rw [Scanner.standsAlone, Scanner.standsAlone, hstart, hstart, ← hlength, List.drop_left,
    List.drop_left, hfollow]

theorem begin_keyword (h : Respaced kept kept' p q u v) {before : Option Char}
    (hu : Plain kept before p u) {word : String} (hword : word ∈ keyword? before u) :
    Begin kept kept' p q u v word.length := by
  have hkept := hu.keyword word hword
  obtain ⟨hmem, hstands⟩ := mem_typeKeywords_of_mem_keyword? hword
  obtain ⟨rest, rfl⟩ := startsWith_of_standsAlone hstands
  rw [← String.length_toList]
  refine h.begin_kept ?_ hkept
  have hword := (Lexicon.isWordChar_of_mem_typeKeywords hmem).2
  cases hlast : word.toList.getLast? with
  | none => rfl
  | some c =>
    rw [hlast] at hword
    exact Rendering.isBlank_of_isWordChar hword

theorem begin_digits (h : Respaced kept kept' p q u v) :
    runLength Char.isDigit v = runLength Char.isDigit u ∧
      Begin kept kept' p q u v (runLength Char.isDigit u) :=
  h.begin_runLength fun _ hd =>
    Rendering.isDigit_of_not_isWordChar (Rendering.isWordChar_of_isBlank hd)

theorem begin_nameRest (h : Respaced kept kept' p q u v) :
    runLength isNameRest v = runLength isNameRest u ∧
      Begin kept kept' p q u v (runLength isNameRest u) :=
  h.begin_runLength fun _ hd =>
    Rendering.isNameRest_of_not_isWordChar (Rendering.isWordChar_of_isBlank hd)

section Piece

variable {c : Char} (h : Respaced kept kept' p q (c :: u) (c :: v)) (hc : Text.isBlank c = false)
  {before before' : Option Char} (hu : Plain kept before p (c :: u))
include h hc hu

theorem measures_eq (hv : Plain kept' before' q (c :: v))
    (hbefore : before'.any Text.isWordChar = before.any Text.isWordChar) :
    measures before' (c :: v) = measures before (c :: u) := by
  have hnumber : run? Char.isDigit (c :: v) = run? Char.isDigit (c :: u) := by
    rw [run?, run?, h.begin_digits.1]
  have hkeyword : keyword? before' (c :: v) = keyword? before (c :: u) := by
    refine keyword?_eq hbefore (fun word hmem => ?_) fun word hmem => ?_
    · rw [(h.begin_keyword hu hmem).standsAlone]
      exact (mem_typeKeywords_of_mem_keyword? hmem).2
    · rw [(h.symm.begin_keyword hv hmem).standsAlone]
      exact (mem_typeKeywords_of_mem_keyword? hmem).2
  have hname : name? (c :: v) = name? (c :: u) := by
    rw [name?_cons, name?_cons, h.begin_nameRest.1]
  have hblanks (cs : List Char) : run? Text.isBlank (c :: cs) = none := Rendering.no_run hc
  rw [measures, measures, hu.block, hu.line, hv.block, hv.line, hnumber, hkeyword, hname, hblanks,
    hblanks]
  rfl

/-- What is measured in one text begins the other one as well. -/
theorem begin_of_mem_measures {m : Option LexemeKind × Option Nat}
    (hm : m ∈ measures before (c :: u)) {n : Nat} (hn : n ∈ m.2) :
    Begin kept kept' p q (c :: u) (c :: v) n := by
  simp only [measures, List.mem_cons, List.not_mem_nil, or_false] at hm
  rcases hm with rfl | rfl | rfl | rfl | rfl | rfl | rfl
  · rw [hu.block] at hn
    cases hn
  · rw [hu.line] at hn
    cases hn
  · unfold run? at hn
    split at hn
    · cases hn
    · cases hn
      exact h.begin_digits.2
  · obtain ⟨word, hmem, rfl⟩ := Option.map_eq_some_iff.1 hn
    exact h.begin_keyword hu hmem
  · dsimp only at hn
    rw [name?_cons] at hn
    split at hn
    · cases hn
      exact h.begin_nameRest.2
    · cases hn
  · dsimp only at hn
    rw [operator?] at hn
    split at hn
    · cases hn
      exact h.begin_one hc
    · cases hn
  · dsimp only at hn
    rw [Rendering.no_run hc] at hn
    cases hn

/-- Where a character stands that is no blank, the same piece is claimed in both texts. -/
theorem exists_piece (hv : Plain kept' before' q (c :: v))
    (hbefore : before'.any Text.isWordChar = before.any Text.isWordChar) :
    ∃ kind? w u' v', c :: u = w ++ u' ∧ c :: v = w ++ v' ∧
      pieceAt before (w ++ u') = (kind?, w.length) ∧
      pieceAt before' (w ++ v') = (kind?, w.length) ∧
      Respaced kept kept' (p.after w) (q.after w) u' v' := by
  have hsame : pieceAt before' (c :: v) = pieceAt before (c :: u) := by
    rw [pieceAt, h.measures_eq hc hu hv hbefore, pieceAt]
  have hbegin : Begin kept kept' p q (c :: u) (c :: v) (pieceAt before (c :: u)).2 := by
    rcases pieceAt_cases before (c :: u) with heq | ⟨m, hm, n, hn, heq⟩
    · rw [heq]
      exact h.begin_one hc
    · rw [heq]
      exact h.begin_of_mem_measures hc hu hm hn
  obtain ⟨w, u', v', hlength, heq, heq', hafter⟩ := hbegin
  refine ⟨(pieceAt before (c :: u)).1, w, u', v', heq, heq', ?_, ?_, hafter⟩
  · rw [← heq, hlength]
  · rw [← heq', hsame, hlength]

end Piece

end Respaced

/-! ## The same lexemes in both texts -/

/-- No lexeme is a comment, and the places that type keywords cover are kept. -/
def Keeps (kept : Position → Prop) (ls : List Lexeme) : Prop :=
  ∀ l ∈ ls, l.isComment = false ∧ (l.kind = .type → ∀ r, l.span.covers r = true → kept r)

theorem Keeps.plain {kept : Position → Prop} {before : Option Char} {p : Position}
    {text : List Char} (htext : text ≠ []) (h : Keeps kept (scan before p text)) :
    Plain kept before p text := by
  rw [scan_of_ne_nil before p htext] at h
  have hcomment : (pieceAt before text).1 ≠ some .comment := by
    intro hkind
    rw [hkind] at h
    cases (h _ List.mem_cons_self).1
  obtain ⟨hblock, hline⟩ : blockComment? text = none ∧ lineComments? text = none := by
    rcases pieceAt_comment before text with ⟨hkind, -⟩ | ⟨-, hnone⟩
    · exact absurd hkind hcomment
    · exact hnone
  refine ⟨hblock, hline, fun word hword r hle hlt => ?_⟩
  have hclaimed : text.take word.length = word.toList := by
    rw [← String.length_toList]
    exact (List.prefix_iff_eq_take.1 (startsWith_of_standsAlone
      (mem_typeKeywords_of_mem_keyword? hword).2)).symm
  rw [pieceAt_keyword hblock hline hword] at h
  dsimp only at h
  rw [hclaimed] at h
  refine (h _ List.mem_cons_self).2 rfl r ?_
  rw [Span.covers, decide_eq_true hle, decide_eq_true hlt]
  rfl

/-- The lexemes of a text are that of its first piece, if it makes one, and those of the rest. -/
theorem Scanner.scan_piece {before : Option Char} (p : Position) {w text : List Char}
    {kind? : Option LexemeKind} (hpiece : pieceAt before (w ++ text) = (kind?, w.length)) :
    w ≠ [] ∧ scan before p (w ++ text) =
      (kind?.map fun kind => ⟨kind, String.ofList w, ⟨p, p.after w⟩⟩).toList ++
        scan w.getLast? (p.after w) text := by
  have hw : w ≠ [] := by
    have hpos := pieceAt_pos before (w ++ text)
    rw [hpiece] at hpos
    exact List.length_pos_iff.1 hpos
  refine ⟨hw, ?_⟩
  rw [scan_of_ne_nil before p (List.append_ne_nil_of_left_ne_nil hw text), hpiece]
  dsimp only
  rw [List.take_left, List.drop_left]
  cases kind? <;> rfl

theorem Respaced.scan_eq {kept kept' : Position → Prop} {p q : Position} {u v : List Char}
    (h : Respaced kept kept' p q u v) {before before' : Option Char}
    (hbefore : before'.any Text.isWordChar = before.any Text.isWordChar)
    (hu : Keeps kept (scan before p u)) (hv : Keeps kept' (scan before' q v)) :
    (scan before' q v).map Lexeme.unplaced = (scan before p u).map Lexeme.unplaced := by
  -- piece by piece, and whole runs of blanks at once
  induction hlen : u.length using Nat.strongRecOn generalizing u v before before' p q with
  | ind n ih =>
    subst hlen
    cases h with
    | done => rw [scan, scan]
    | @char p q c u v hc h =>
      obtain ⟨kind?, w, u', v', heq, heq', hpiece, hpiece', hafter⟩ :=
        (h.char hc).exists_piece hc (hu.plain (List.cons_ne_nil c u))
          (hv.plain (List.cons_ne_nil c v)) hbefore
      obtain ⟨hw, hscan⟩ := scan_piece p hpiece
      have hscan' := (scan_piece q hpiece').2
      rw [heq] at hu ih ⊢
      rw [heq'] at hv ⊢
      rw [hscan] at hu ⊢
      rw [hscan'] at hv ⊢
      have hlt : u'.length < (w ++ u').length := by
        have := List.length_pos_iff.2 hw
        rw [List.length_append]
        omega
      have hfurther := ih _ hlt hafter rfl (fun l hl => hu l (List.mem_append_right _ hl))
        (fun l hl => hv l (List.mem_append_right _ hl)) rfl
      rw [List.map_append, List.map_append, hfurther]
      cases kind? <;> rfl
    | @run p q g g' u v hg hg' hstop hstop' hkept h =>
      rw [scan_blanks before p hg.1 fun _ => hg.isBlank] at hu ⊢
      rw [scan_blanks before' q hg'.1 fun _ => hg'.isBlank] at hv ⊢
      have hlast {g : List Char} (hg : IsRun g) := any_getLast?_of_blanks hg.1 fun _ => hg.isBlank
      have hlt : u.length < (g ++ u).length := by
        have := List.length_pos_iff.2 hg.1
        rw [List.length_append]
        omega
      exact ih _ hlt h ((hlast hg').trans (hlast hg).symm) hu hv rfl

/-! ## The same declarations in both sources -/

namespace Lexicon

/-- Whether the character at a position is part of a type keyword. -/
def InKeyword (source : String) (p : Position) : Prop :=
  ∃ l ∈ (lexemes source).1, l.kind = .type ∧ l.span.covers p = true

instance (source : String) (p : Position) : Decidable (InKeyword source p) :=
  inferInstanceAs (Decidable (∃ l ∈ (lexemes source).1, l.kind = .type ∧ l.span.covers p = true))

theorem unplaced_lexemes_of_respaced {a b : String}
    (h : Respaced (InKeyword a) (InKeyword b) {} {} a.toList b.toList)
    (ha : ∀ l ∈ (lexemes a).1, l.isComment = false)
    (hb : ∀ l ∈ (lexemes b).1, l.isComment = false) :
    (lexemes a).1.map Lexeme.unplaced = (lexemes b).1.map Lexeme.unplaced := by
  have keeps {source : String} (hplain : ∀ l ∈ (lexemes source).1, l.isComment = false) :
      Keeps (InKeyword source) (scan none {} source.toList) := by
    intro l hl
    have hl : l ∈ (lexemes source).1 := fst_lexemes source ▸ hl
    exact ⟨hplain l hl, fun hkind r hr => ⟨l, hl, hkind, hr⟩⟩
  rw [fst_lexemes, fst_lexemes]
  exact (h.scan_eq rfl (keeps ha) (keeps hb)).symm

end Lexicon

namespace TranslationUnit

open Lexicon

/-- Spacing does not matter: in two sources without comments that differ in their runs of blanks,
those in type keywords apart, the same is declared, and the same remarks are made. -/
theorem agrees_of_respaced {a b : String}
    (h : Respaced (InKeyword a) (InKeyword b) {} {} a.toList b.toList)
    (ha : ∀ l ∈ (Lexicon.lexemes a).1, l.isComment = false)
    (hb : ∀ l ∈ (Lexicon.lexemes b).1, l.isComment = false) :
    (ofSource a).Agrees (ofSource b) :=
  .of_unplaced (unplaced_ofSource (unplaced_lexemes_of_respaced h ha hb))

theorem agrees_of_unsigned_member :
    Respaced (InKeyword "struct s \x7b unsigned int x; \x7d;")
        (InKeyword "struct s\n\x7b unsigned int\tx; \x7d;") {} {}
        "struct s \x7b unsigned int x; \x7d;".toList
        "struct s\n\x7b unsigned int\tx; \x7d;".toList ∧
      (ofSource "struct s \x7b unsigned int x; \x7d;").Agrees
        (ofSource "struct s\n\x7b unsigned int\tx; \x7d;") := by
  have htext : "struct s \x7b unsigned int x; \x7d;".toList =
      "struct s".toList ++ ([' '] ++ ("\x7b unsigned int".toList ++ ([' '] ++
        ("x; \x7d;".toList ++ [])))) := by decide
  have htext' : "struct s\n\x7b unsigned int\tx; \x7d;".toList =
      "struct s".toList ++ (['\n'] ++ ("\x7b unsigned int".toList ++ (['\t'] ++
        ("x; \x7d;".toList ++ [])))) := by decide
  -- all that has to be computed from the lexemes, at once
  obtain ⟨⟨hbrace, hname, hplain⟩, hbrace', hname', hplain'⟩ :
      (¬InKeyword "struct s \x7b unsigned int x; \x7d;" ⟨0, 8⟩ ∧
        ¬InKeyword "struct s \x7b unsigned int x; \x7d;" ⟨0, 23⟩ ∧
        ∀ l ∈ (Lexicon.lexemes "struct s \x7b unsigned int x; \x7d;").1, l.isComment = false) ∧
      ¬InKeyword "struct s\n\x7b unsigned int\tx; \x7d;" ⟨0, 8⟩ ∧
        ¬InKeyword "struct s\n\x7b unsigned int\tx; \x7d;" ⟨1, 14⟩ ∧
        ∀ l ∈ (Lexicon.lexemes "struct s\n\x7b unsigned int\tx; \x7d;").1,
          l.isComment = false := by
    decide +kernel
  have h : Respaced (InKeyword "struct s \x7b unsigned int x; \x7d;")
      (InKeyword "struct s\n\x7b unsigned int\tx; \x7d;") {} {}
      "struct s \x7b unsigned int x; \x7d;".toList
      "struct s\n\x7b unsigned int\tx; \x7d;".toList := by
    rw [htext, htext']
    refine .prepend (by decide) (.run (by decide) (by decide) (by decide) (by decide)
      (fun h => absurd h (not_or.2 ⟨hbrace, hbrace'⟩)) ?_)
    refine .prepend (by decide) (.run (by decide) (by decide) (by decide) (by decide)
      (fun h => absurd h (not_or.2 ⟨hname, hname'⟩)) ?_)
    exact .prepend (by decide) .done
  exact ⟨h, agrees_of_respaced h hplain hplain'⟩

/-- The names of the types of members, struct by struct. -/
def memberTypes (u : TranslationUnit) : List (List (Option String)) :=
  u.structs.map fun id => (u.members id).map u.typeName?

/-- On two lines, the words of a keyword are no keyword, and nothing is remarked about the first. -/
theorem memberTypes_of_split_keyword :
    Respaced (fun _ => False) (fun _ => False) {} {}
        "struct a \x7b unsigned int x; \x7d;".toList
        "struct a \x7b unsigned\nint x; \x7d;".toList ∧
      (∀ l ∈ (Lexicon.lexemes "struct a \x7b unsigned int x; \x7d;").1, l.isComment = false) ∧
      (∀ l ∈ (Lexicon.lexemes "struct a \x7b unsigned\nint x; \x7d;").1, l.isComment = false) ∧
      (ofSource "struct a \x7b unsigned int x; \x7d;").memberTypes = [[some "unsigned int"]] ∧
      (ofSource "struct a \x7b unsigned\nint x; \x7d;").memberTypes = [[some "int"]] ∧
      (ofSource "struct a \x7b unsigned\nint x; \x7d;").diagnostics = {} := by
  have htext : "struct a \x7b unsigned int x; \x7d;".toList = "struct a \x7b unsigned".toList ++
      ([' '] ++ ("int x; \x7d;".toList ++ [])) := by decide
  have htext' : "struct a \x7b unsigned\nint x; \x7d;".toList = "struct a \x7b unsigned".toList ++
      (['\n'] ++ ("int x; \x7d;".toList ++ [])) := by decide
  refine ⟨?_, by decide +kernel⟩
  rw [htext, htext']
  refine .prepend (by decide) (.run (by decide) (by decide) (by decide) (by decide)
    (by rintro (⟨⟨⟩⟩ | ⟨⟨⟩⟩)) ?_)
  exact .prepend (by decide) .done

end TranslationUnit

end CStruct
