import CStruct.Proofs.Comments.Blanking
import CStruct.Proofs.Declared.Sources

/-!
# The lines of a source

Lexemes stand one behind the other, and only comments go over more than one line. So the comments of
a source are in order, and each of its symbols starts and stops on one line.
-/

namespace CStruct

/-! ## Positions -/

namespace Position

theorem line_le {p q : Position} (h : p ≤ q) : p.line ≤ q.line := by
  rw [le_iff] at h
  omega

/-- A text without a line feed stays on its line. -/
theorem line_after {p : Position} {cs : List Char} (h : '\n' ∉ cs) : (p.after cs).line = p.line := by
  induction cs generalizing p with
  | nil => rfl
  | cons c cs ih =>
    rw [List.mem_cons, not_or] at h
    rw [after_cons, ih h.2, next, if_neg (Ne.symm h.1)]

end Position

/-! ## Lexemes in order -/

namespace Scanner

theorem span_of_mem_scan {before : Option Char} {p : Position} {text : List Char} {l : Lexeme}
    (h : l ∈ scan before p text) : l.span.stop = l.span.start.after l.text.toList := by
  fun_induction scan before p text with
  | case1 => cases h
  | case2 before p c cs piece claimed stop further kind hkind ih =>
    rcases List.mem_cons.1 h with rfl | h
    · show stop = p.after (String.ofList claimed).toList
      rw [String.toList_ofList]
    · exact ih h
  | case3 before p c cs piece claimed stop further hkind ih => exact ih h

/-- A lexeme starts behind all lexemes before it. -/
theorem pairwise_scan (before : Option Char) (p : Position) (text : List Char) :
    (scan before p text).Pairwise fun l l' => l.span.stop ≤ l'.span.start := by
  fun_induction scan before p text with
  | case1 => exact .nil
  | case2 before p c cs piece claimed stop further kind hkind ih =>
    exact List.pairwise_cons.2 ⟨fun l hl => le_start_of_mem_scan hl, ih⟩
  | case3 before p c cs piece claimed stop further hkind ih => exact ih

end Scanner

/-- Only comments hold line feeds. -/
theorem Lexeme.IsSpelled.no_line_feed {l : Lexeme} (h : l.IsSpelled) (hl : l.isComment = false) :
    '\n' ∉ l.text.toList := by
  cases hkind : l.kind with
  | comment =>
    rw [isComment, hkind] at hl
    cases hl
  | number =>
    intro hmem
    exact absurd (List.all_eq_true.1 (h.of_number hkind).2 '\n' hmem) (by decide)
  | type =>
    have hall : ∀ word ∈ Lexicon.typeKeywords, '\n' ∉ word.toList := by decide
    exact hall l.text (h.of_type hkind)
  | name =>
    obtain ⟨c, cs, heq, hstart, hrest⟩ := h.of_name hkind
    rw [heq, String.toList_ofList, List.mem_cons, not_or]
    constructor
    · rintro rfl
      exact absurd hstart (by decide)
    · intro hmem
      exact absurd (List.all_eq_true.1 hrest '\n' hmem) (by decide)
  | operator =>
    obtain ⟨c, hc, heq⟩ := h.of_operator hkind
    have hnone : '\n' ∉ Scanner.operators := by decide +kernel
    rw [heq, String.toList_ofList, List.mem_singleton]
    rintro rfl
    exact hnone hc

namespace TranslationUnit

open SymbolTable

variable (source : String)

/-- The comments of a source stand one behind the other. -/
theorem pairwise_comments : (ofSource source).comments.toList.Pairwise
    fun c c' => c.span.stop ≤ c'.span.start := by
  rw [comments_ofSource, Lexicon.fst_lexemes]
  exact (Scanner.pairwise_scan none {} source.toList).sublist List.filter_sublist

theorem start_le_stop_of_mem_comments {source : String} {c : Lexeme}
    (hc : c ∈ (ofSource source).comments.toList) : c.span.start ≤ c.span.stop := by
  rw [comments_ofSource, Lexicon.fst_lexemes] at hc
  rw [Scanner.span_of_mem_scan (List.mem_filter.1 hc).1]
  exact Position.le_after _ _

/-- Each symbol of a source stands on one line. -/
theorem line_symbol (id : SymbolId) : ((ofSource source).symbol id).span.stop.line =
    ((ofSource source).symbol id).span.start.line := by
  obtain ⟨read, last, hsymbols, htokens, -, -, -, -, hend⟩ := read_ofSource source
  have hget : (ofSource source).symbol id = ((read ++ [last])[id]?).getD default := by
    rw [symbol, Array.getD_eq_getD_getElem?, ← Array.getElem?_toList, hsymbols]
  rw [hget]
  cases hx : (read ++ [last])[id]? with
  | none => rfl
  | some x =>
    -- a symbol comes from a lexeme that is no comment, or it is the end
    rcases List.mem_append.1 (List.mem_of_getElem? hx) with hread | hlast
    · have htoken := List.mem_map_of_mem (f := fun x : Symbol => (x.value, x.span)) hread
      rw [htokens] at htoken
      obtain ⟨l, hl, heq⟩ := List.mem_map.1 htoken
      obtain ⟨hlexeme, hcomment⟩ := List.mem_filter.1 hl
      have hspelled := Lexicon.isSpelled_of_mem_lexemes hlexeme
      rw [Lexicon.fst_lexemes] at hlexeme
      have hspan : l.span = x.span := congrArg Prod.snd heq
      rw [Option.getD_some, ← hspan, Scanner.span_of_mem_scan hlexeme]
      rw [Bool.not_eq_true'] at hcomment
      exact Position.line_after (hspelled.no_line_feed hcomment)
    · rw [Option.getD_some, List.mem_singleton.1 hlast, hend]
      rfl

end TranslationUnit

end CStruct
