import CStruct.Proofs.Rendering.Gaps
import CStruct.Proofs.Lexicon.Spelling
import Mathlib.Data.List.Forall2

/-!
# Blanks in the place of comments

`Lexicon.withoutComments` writes blanks over the places that the comments of a source cover. The
scanner claims the text piece by piece, and this is writing over the pieces that are comments,
`Scanner.blanked`. Characters only fade into spaces: lines stay as they are, so nothing moves.
-/

namespace CStruct

open Scanner

/-! ## Writing over comments -/

/-- Whether the character at a position is part of a stretch of text. -/
def Span.covers (s : Span) (p : Position) : Bool := s.start ≤ p && p < s.stop

/-- What is written over a character. Lines stay as they are. -/
def blankFor (c : Char) : Char := if c = '\n' then c else ' '

/-- A text that begins at a position, with blanks in some places. -/
def blankOut (covered : Position → Bool) (p : Position) : List Char → List Char
  | [] => []
  | c :: cs => (if covered p then blankFor c else c) :: blankOut covered (p.next c) cs

/-- A source with a space for each character of its comments that is no line feed. -/
def Lexicon.withoutComments (source : String) : String :=
  let comments := (Lexicon.lexemes source).1.filter Lexeme.isComment
  String.ofList (blankOut (fun p => comments.any (·.span.covers p)) {} source.toList)

namespace Scanner

/-- What the scanner takes for a comment is written over, piece by piece. -/
def blanked (before : Option Char) (text : List Char) : List Char :=
  match text with
  | [] => []
  | c :: cs =>
    let piece := pieceAt before (c :: cs)
    let claimed := (c :: cs).take piece.2
    (if piece.1 = some .comment then claimed.map blankFor else claimed) ++
      blanked claimed.getLast? ((c :: cs).drop piece.2)
termination_by text.length
decreasing_by
  have := pieceAt_pos before (c :: cs)
  rw [List.length_drop, List.length_cons]
  omega

theorem blanked_nil (before : Option Char) : blanked before [] = [] := by rw [blanked]

theorem blanked_of_ne_nil (before : Option Char) {text : List Char} (h : text ≠ []) :
    blanked before text =
      let claimed := text.take (pieceAt before text).2
      (if (pieceAt before text).1 = some .comment then claimed.map blankFor else claimed) ++
        blanked claimed.getLast? (text.drop (pieceAt before text).2) := by
  cases text with
  | nil => exact absurd rfl h
  | cons c cs => rw [blanked]

theorem length_drop_pieceAt (before : Option Char) {text : List Char} (h : text ≠ []) :
    (text.drop (pieceAt before text).2).length < text.length := by
  have hpos := pieceAt_pos before text
  have hlength := List.length_pos_iff.2 h
  rw [List.length_drop]
  omega

/-! ### Comments -/

/-- A piece is a comment if and only if it is measured as one. -/
theorem pieceAt_comment (before : Option Char) (text : List Char) :
    ((pieceAt before text).1 = some .comment ∧ (blockComment? text = some (pieceAt before text).2 ∨
      lineComments? text = some (pieceAt before text).2)) ∨
    ((pieceAt before text).1 ≠ some .comment ∧ blockComment? text = none ∧
      lineComments? text = none) := by
  unfold pieceAt measures
  cases hblock : blockComment? text with
  | some n => exact .inl ⟨rfl, .inl rfl⟩
  | none =>
    cases hline : lineComments? text with
    | some n => exact .inl ⟨rfl, .inr rfl⟩
    | none =>
      refine .inr ⟨?_, rfl, rfl⟩
      rw [List.findSome?_cons, List.findSome?_cons]
      dsimp only [Option.map_none]
      intro hkind
      generalize hfind : List.findSome? _ _ = found at hkind
      cases found with
      | none => cases hkind
      | some piece =>
        obtain ⟨m, hm, hpiece⟩ := List.exists_of_findSome?_eq_some hfind
        simp only [List.mem_cons, List.not_mem_nil, or_false] at hm
        obtain ⟨n, -, rfl⟩ := Option.map_eq_some_iff.1 hpiece
        rcases hm with rfl | rfl | rfl | rfl | rfl <;> cases hkind

theorem startsWith_cons_cons {a b : Char} {marker : String} (hmarker : marker.toList = [a, b])
    {text : List Char} (h : startsWith marker text = true) : ∃ cs, text = a :: b :: cs := by
  rw [startsWith, hmarker] at h
  obtain ⟨cs, rfl⟩ := List.isPrefixOf_iff_prefix.1 h
  exact ⟨cs, rfl⟩

/-- A comment is longer than its marker, which begins with a slash. -/
theorem marker_of_comment {text : List Char} {n : Nat}
    (h : blockComment? text = some n ∨ lineComments? text = some n) :
    ∃ d cs k, text = '/' :: d :: cs ∧ d ≠ '\n' ∧ n = k + 2 := by
  rcases h with h | h
  · unfold blockComment? at h
    split at h
    · rename_i hstart
      obtain ⟨cs, rfl⟩ := startsWith_cons_cons (a := '/') (b := '*') rfl hstart
      obtain ⟨k, -, rfl⟩ := Option.map_eq_some_iff.1 h
      exact ⟨'*', cs, k, rfl, by decide, rfl⟩
    · cases h
  · unfold lineComments? at h
    split at h
    · rename_i hstart
      obtain ⟨cs, rfl⟩ := startsWith_cons_cons (a := '/') (b := '/') rfl hstart
      cases h
      exact ⟨'/', cs, _, rfl, by decide, rfl⟩
    · cases h

/-- Behind a line comment its line ends. -/
theorem head_drop_lineEnd (cs : List Char) : ∀ c ∈ (cs.drop (lineEnd cs)).head?, c = '\n' := by
  induction hlen : cs.length using Nat.strongRecOn generalizing cs with
  | ind n ih =>
    cases h : commentBelow? cs with
    | none =>
      rw [lineEnd_of_none h, drop_runLength]
      intro c hc
      have hhead := List.head?_dropWhile_not inLine cs
      rw [hc] at hhead
      have hc : inLine c = false := hhead
      exact bne_eq_false_iff_eq.1 hc
    | some further =>
      have hlt := length_of_mem_commentBelow? h
      obtain ⟨between, hbetween⟩ := suffix_of_mem_commentBelow? h
      have hlength : cs.length - further.length = between.length := by
        rw [← hbetween, List.length_append]
        omega
      rw [lineEnd_of_some h, hlength, ← hbetween, List.drop_length_add_append]
      exact ih further.length (hlen ▸ hlt) further rfl

theorem getLast?_blockEnd {cs : List Char} {n : Nat} (h : blockEnd? cs = some n) :
    2 ≤ n ∧ (cs.take n).getLast? = some '/' := by
  induction cs generalizing n with
  | nil => cases h
  | cons c cs ih =>
    rw [blockEnd?] at h
    split at h
    · rename_i hmarker
      obtain ⟨ds, hds⟩ := startsWith_cons_cons (a := '*') (b := '/') rfl hmarker
      cases h
      rw [hds]
      exact ⟨Nat.le_refl 2, rfl⟩
    · obtain ⟨k, hk, rfl⟩ := Option.map_eq_some_iff.1 h
      obtain ⟨hle, hlast⟩ := ih hk
      refine ⟨Nat.le_succ_of_le hle, ?_⟩
      rw [List.take_succ_cons, List.getLast?_cons, hlast]
      rfl

/-- Behind a comment, a word begins a word: the comment ends in a slash or with its line. -/
theorem behind_comment {text : List Char} {n : Nat}
    (h : blockComment? text = some n ∨ lineComments? text = some n) :
    (text.take n).getLast? = some '/' ∨ ∀ c ∈ (text.drop n).head?, c = '\n' := by
  rcases h with h | h
  · left
    unfold blockComment? at h
    split at h
    · rename_i hstart
      obtain ⟨cs, rfl⟩ := startsWith_cons_cons (a := '/') (b := '*') rfl hstart
      obtain ⟨k, hk, rfl⟩ := Option.map_eq_some_iff.1 h
      change blockEnd? cs = some k at hk
      have hlast := (getLast?_blockEnd hk).2
      show ('/' :: '*' :: cs.take k).getLast? = some '/'
      rw [List.getLast?_cons, List.getLast?_cons, hlast]
      rfl
    · cases h
  · right
    unfold lineComments? at h
    split at h
    · cases h
      rw [Nat.add_comm, ← List.drop_drop]
      exact head_drop_lineEnd _
    · cases h

/-! ### A text with faded characters -/

/-- What may become of a character. -/
def Fades (c c' : Char) : Prop := c' = c ∨ c ≠ '\n' ∧ c' = ' '

theorem fades_blankFor (c : Char) : Fades c (blankFor c) := by
  unfold blankFor
  split
  · exact .inl rfl
  · rename_i hc
    exact .inr ⟨hc, rfl⟩

theorem Fades.eq {c c' : Char} (h : Fades c c') (hc : c' ≠ ' ') : c' = c :=
  h.resolve_right fun hblank => hc hblank.2

theorem forall₂_fades_map (cs : List Char) : List.Forall₂ Fades cs (cs.map blankFor) :=
  List.forall₂_map_right_iff.2 (List.forall₂_same.2 fun c _ => fades_blankFor c)

theorem forall₂_fades_refl (cs : List Char) : List.Forall₂ Fades cs cs :=
  List.forall₂_same.2 fun _ _ => .inl rfl

/-- Lines stay as they are, so nothing moves. -/
theorem after_of_fades {cs cs' : List Char} (h : List.Forall₂ Fades cs cs') (p : Position) :
    p.after cs' = p.after cs := by
  induction h generalizing p with
  | nil => rfl
  | @cons c c' cs cs' hc _ ih =>
    rw [Position.after_cons, Position.after_cons, ih]
    rcases hc with rfl | ⟨hc, rfl⟩
    · rfl
    · rw [Position.next, if_neg (by decide), Position.next, if_neg hc]

/-- No block comment ends where none has ended before. -/
theorem blockEnd?_of_fades {cs cs' : List Char} (h : List.Forall₂ Fades cs cs')
    (hend : blockEnd? cs = none) : blockEnd? cs' = none := by
  induction h with
  | nil => rfl
  | @cons c c' cs cs' hc hcs ih =>
    rw [blockEnd?] at hend
    split at hend
    · cases hend
    · rename_i hmarker
      rw [blockEnd?, if_neg, ih (Option.map_eq_none_iff.1 hend)]
      · rfl
      · intro hmarker'
        obtain ⟨ds, hds⟩ := startsWith_cons_cons (a := '*') (b := '/') rfl hmarker'
        cases hds
        cases hcs with
        | @cons d _ es _ hd =>
          obtain rfl := hc.eq (by decide)
          obtain rfl := hd.eq (by decide)
          exact hmarker rfl

theorem fades_blanked (before : Option Char) (text : List Char) :
    List.Forall₂ Fades text (blanked before text) := by
  induction hlen : text.length using Nat.strongRecOn generalizing before text with
  | ind n ih =>
    by_cases htext : text = []
    · rw [htext, blanked_nil]
      exact .nil
    · have hrest := ih _ (hlen ▸ length_drop_pieceAt before htext)
        (text.take (pieceAt before text).2).getLast? (text.drop (pieceAt before text).2) rfl
      rw [blanked_of_ne_nil before htext]
      nth_rewrite 1 [← List.take_append_drop (pieceAt before text).2 text]
      apply List.rel_append _ hrest
      split
      · exact forall₂_fades_map _
      · exact forall₂_fades_refl _

/-! ### The same places -/

theorem blankOut_append (covered : Position → Bool) (p : Position) (u v : List Char) :
    blankOut covered p (u ++ v) = blankOut covered p u ++ blankOut covered (p.after u) v := by
  induction u generalizing p with
  | nil => rfl
  | cons c u ih =>
    rw [List.cons_append, blankOut, blankOut, ih, Position.after_cons]
    rfl

/-- A stretch of text that is written over as a whole, or left alone. -/
theorem blankOut_of_eq {covered : Position → Bool} {p : Position} {u : List Char} {b : Bool}
    (h : ∀ q, p ≤ q → q < p.after u → covered q = b) :
    blankOut covered p u = if b then u.map blankFor else u := by
  induction u generalizing p with
  | nil => cases b <;> rfl
  | cons c u ih =>
    have hhere := h p (Position.le_refl p) (Position.lt_after p (List.cons_ne_nil c u))
    rw [blankOut, hhere, ih fun q hle => h q (Position.le_trans (Position.le_of_lt
      (Position.lt_next p c)) hle)]
    cases b <;> rfl

theorem le_start_of_mem_scan {before : Option Char} {p : Position} {text : List Char} {l : Lexeme}
    (h : l ∈ scan before p text) : p ≤ l.span.start := by
  induction hlen : text.length using Nat.strongRecOn generalizing before p text with
  | ind n ih =>
    by_cases htext : text = []
    · rw [htext, scan] at h
      cases h
    · have hrest {q : Position} {last : Option Char}
          (h : l ∈ scan last q (text.drop (pieceAt before text).2)) : q ≤ l.span.start :=
        ih _ (hlen ▸ length_drop_pieceAt before htext) h rfl
      rw [scan_of_ne_nil before p htext] at h
      dsimp only at h
      split at h
      · rcases List.mem_cons.1 h with rfl | h
        · exact Position.le_refl p
        · exact Position.le_trans (Position.le_after p _) (hrest h)
      · exact Position.le_trans (Position.le_after p _) (hrest h)

/-- What begins later does not cover a position. -/
theorem not_covers_scan {before : Option Char} {p q : Position} (hq : q < p) (text : List Char) :
    ((scan before p text).filter Lexeme.isComment).any (·.span.covers q) = false := by
  rw [List.any_eq_false]
  intro l hl hcovers
  have hstart := le_start_of_mem_scan (List.mem_filter.1 hl).1
  rw [Span.covers, Bool.and_eq_true, decide_eq_true_eq] at hcovers
  exact Position.lt_irrefl q (Position.lt_of_lt_of_le hq (Position.le_trans hstart hcovers.1))

/-- Writing over the places that comments cover is writing over comments, piece by piece. -/
theorem blankOut_eq_blanked {covered : Position → Bool} {before : Option Char} {p : Position}
    {text : List Char} (h : ∀ q, p ≤ q → covered q =
      ((scan before p text).filter Lexeme.isComment).any (·.span.covers q)) :
    blankOut covered p text = blanked before text := by
  induction hlen : text.length using Nat.strongRecOn generalizing before p text with
  | ind n ih =>
    by_cases htext : text = []
    · rw [htext, blanked_nil]
      rfl
    have hlt := hlen ▸ length_drop_pieceAt before htext
    have hblanked := blanked_of_ne_nil before htext
    rw [scan_of_ne_nil before p htext] at h
    generalize (pieceAt before text).2 = k at *
    generalize (pieceAt before text).1 = kind? at *
    dsimp only at h hblanked
    have hsplit : blankOut covered p text = blankOut covered p (text.take k) ++
        blankOut covered (p.after (text.take k)) (text.drop k) := by
      rw [← blankOut_append, List.take_append_drop]
    -- a piece that is no comment adds nothing to the places that are covered
    have hother (hkind : kind? ≠ some .comment) (q : Position) (hq : p ≤ q) : covered q =
        ((scan (text.take k).getLast? (p.after (text.take k)) (text.drop k)).filter
          Lexeme.isComment).any (·.span.covers q) := by
      rw [h q hq]
      cases kind? with
      | none => rfl
      | some kind =>
        dsimp only
        rw [List.filter_cons_of_neg]
        rw [Lexeme.isComment, beq_iff_eq]
        exact fun heq => hkind (congrArg some heq)
    by_cases hkind : kind? = some .comment
    · rw [hkind] at h
      have hhere : ∀ q, p ≤ q → covered q = ((Span.mk p (p.after (text.take k))).covers q ||
          ((scan (text.take k).getLast? (p.after (text.take k)) (text.drop k)).filter
            Lexeme.isComment).any (·.span.covers q)) := h
      have hcovered : ∀ q, p ≤ q → q < p.after (text.take k) → covered q = true := by
        intro q hle hq
        rw [hhere q hle, Span.covers, decide_eq_true hle, decide_eq_true hq]
        rfl
      have hclaimed := blankOut_of_eq hcovered
      rw [hsplit, hblanked, if_pos hkind, hclaimed, if_pos rfl, ih _ hlt _ rfl]
      intro q hq
      -- behind the comment, the comment itself covers nothing
      rw [hhere q (Position.le_trans (Position.le_after p _) hq), Span.covers,
        decide_eq_false fun hlt => Position.lt_irrefl q (Position.lt_of_lt_of_le hlt hq),
        Bool.and_false, Bool.false_or]
    · have huncovered : ∀ q, p ≤ q → q < p.after (text.take k) → covered q = false :=
        fun q hle hq => (hother hkind q hle).trans (not_covers_scan hq _)
      have hclaimed := blankOut_of_eq huncovered
      rw [hsplit, hblanked, if_neg hkind, hclaimed, if_neg Bool.false_ne_true, ih _ hlt _ rfl]
      exact fun q hq => hother hkind q (Position.le_trans (Position.le_after p _) hq)

end Scanner

namespace Lexicon

theorem toList_withoutComments (source : String) :
    (withoutComments source).toList = blanked none source.toList := by
  rw [withoutComments, String.toList_ofList]
  apply blankOut_eq_blanked
  intro q _
  rw [fst_lexemes]
  rfl

/-- Without its comments, a source ends where it has ended. -/
theorem position_lexemes_withoutComments (source : String) :
    (lexemes (withoutComments source)).2.position = (lexemes source).2.position := by
  rw [position_lexemes, position_lexemes, toList_withoutComments]
  exact after_of_fades (fades_blanked none source.toList) _

end Lexicon

end CStruct
