import CStruct.Proofs.Comments.Markers

/-!
# Decoration in descriptions

A line of a block comment loses the spaces and stars that lead it. Where other blanks stand behind
them, as in a line that is indented by a tab, a star behind those blanks is left, and these are the
only stars that lead a line of a description.
-/

namespace CStruct.Comment

open Text

/-- Whether the first character of the line that is no blank is a star. -/
def isStarred (line : List Char) : Bool := (line.dropWhile isBlank).head? == some '*'

theorem isStarred_cons (c : Char) (line : List Char) :
    isStarred (c :: line) = (c == '*' || isBlank c && isStarred line) := by
  unfold isStarred
  cases hc : isBlank c with
  | true =>
    have hstar : (c == '*') = false := beq_false_of_ne fun heq => absurd (heq ▸ hc) (by decide)
    rw [List.dropWhile_cons_of_pos hc, hstar, Bool.false_or, Bool.true_and]
  | false =>
    rw [List.dropWhile_cons_of_neg (by rw [hc]; exact Bool.false_ne_true), Bool.false_and,
      Bool.or_false]
    rfl

/-- Whether a line of the text is starred, character by character. The first line is a part of a
line, with only blanks before it if it is `fresh`. -/
def hasStarred (fresh : Bool) : List Char → Bool
  | [] => false
  | c :: cs => fresh && c == '*' || hasStarred (c == '\n' || fresh && isBlank c) cs

theorem hasStarred_blank {c : Char} (hc : isBlank c = true) (fresh : Bool) (cs : List Char) :
    hasStarred fresh (c :: cs) = hasStarred (c == '\n' || fresh) cs := by
  have hstar : (c == '*') = false := beq_false_of_ne fun heq => absurd (heq ▸ hc) (by decide)
  rw [hasStarred, hstar, hc, Bool.and_false, Bool.false_or, Bool.and_true]

theorem any_eq_head_or_tail (ls : List (List Char)) : ls.any isStarred =
    (ls.head?.any (fun l => true && isStarred l) || ls.tail.any isStarred) := by
  cases ls with
  | nil => rfl
  | cons l ls => rfl

/-- Stars are looked for line by line. In the first line, it depends on what has been passed of it
already: it is `fresh` if that was nothing but blanks. -/
theorem hasStarred_eq (fresh : Bool) (cs : List Char) : hasStarred fresh cs =
    ((lines cs).head?.any (fun l => fresh && isStarred l) || (lines cs).tail.any isStarred) := by
  have hempty : (fresh && isStarred []) = false := Bool.and_false fresh
  fun_induction lines cs generalizing fresh with
  | case1 => rfl
  | case2 cs ih =>
    rw [hasStarred_blank (by decide), List.head?_cons, Option.any_some, hempty, Bool.false_or,
      List.tail_cons, any_eq_head_or_tail]
    exact ih true rfl
  | case3 cs ih =>
    rw [hasStarred_blank (by decide), hasStarred_blank (by decide), List.head?_cons,
      Option.any_some, hempty, Bool.false_or, List.tail_cons, any_eq_head_or_tail]
    exact ih true rfl
  | case4 c cs _ _ hl ih =>
    rw [hasStarred, ih _ (Bool.and_false _), hl, List.head?_cons, Option.any_some, isStarred_cons,
      show isStarred [] = false from rfl, Bool.and_false, Bool.or_false]
    rfl
  | case5 c cs hc _ l' ls hl ih =>
    rw [hasStarred, ih _ (Bool.and_false _), hl, List.head?_cons, List.head?_cons, Option.any_some,
      Option.any_some, isStarred_cons, beq_false_of_ne hc, Bool.false_or, Bool.and_or_distrib_left,
      Bool.and_assoc, Bool.or_assoc]
    rfl

theorem any_isStarred_lines (cs : List Char) : (lines cs).any isStarred = hasStarred true cs := by
  rw [hasStarred_eq, any_eq_head_or_tail]

/-! ## Trimming -/

theorem hasStarred_blanks {u : List Char} (hu : ∀ c ∈ u, isBlank c = true) (cs : List Char) :
    hasStarred true (u ++ cs) = hasStarred true cs := by
  induction u with
  | nil => rfl
  | cons c u ih =>
    have hc := hu c List.mem_cons_self
    have hstar : (c == '*') = false := beq_false_of_ne fun heq => absurd (heq ▸ hc) (by decide)
    rw [List.cons_append, hasStarred, hstar, hc, Bool.and_false, Bool.false_or, Bool.true_and,
      Bool.or_true, ih fun d hd => hu d (List.mem_cons_of_mem c hd)]

theorem hasStarred_of_blanks {v : List Char} (hv : ∀ c ∈ v, isBlank c = true) (fresh : Bool) :
    hasStarred fresh v = false := by
  induction v generalizing fresh with
  | nil => rfl
  | cons c v ih =>
    rw [hasStarred_blank (hv c List.mem_cons_self)]
    exact ih (fun d hd => hv d (List.mem_cons_of_mem c hd)) _

theorem hasStarred_append_blanks {v : List Char} (hv : ∀ c ∈ v, isBlank c = true) (fresh : Bool)
    (cs : List Char) : hasStarred fresh (cs ++ v) = hasStarred fresh cs := by
  induction cs generalizing fresh with
  | nil => exact hasStarred_of_blanks hv fresh
  | cons c cs ih => rw [List.cons_append, hasStarred, hasStarred, ih]

theorem hasStarred_trim (cs : List Char) : hasStarred true (trim cs) = hasStarred true cs := by
  obtain ⟨u, v, heq, hu, hv⟩ := exists_trim cs
  nth_rewrite 2 [heq]
  rw [hasStarred_blanks hu, hasStarred_append_blanks hv]

/-! ## Joining lines -/

theorem hasStarred_line {l : List Char} (h : '\n' ∉ l) (fresh : Bool) (cs : List Char) :
    hasStarred fresh (l ++ '\n' :: cs) = (fresh && isStarred l || hasStarred true cs) := by
  induction l generalizing fresh with
  | nil =>
    rw [List.nil_append, hasStarred_blank (by decide), show isStarred [] = false from rfl,
      Bool.and_false, Bool.false_or]
    rfl
  | cons c l ih =>
    rw [List.mem_cons, not_or] at h
    rw [List.cons_append, hasStarred, ih h.2, isStarred_cons, beq_false_of_ne (Ne.symm h.1),
      Bool.false_or, Bool.and_or_distrib_left, Bool.and_assoc, Bool.or_assoc]

theorem hasStarred_intercalate {ls : List (List Char)} (h : ∀ l ∈ ls, '\n' ∉ l) :
    hasStarred true (['\n'].intercalate ls) = ls.any isStarred := by
  induction ls with
  | nil => rfl
  | cons l ls ih =>
    have hl := hasStarred_line (h l List.mem_cons_self) true
    cases ls with
    | nil =>
      -- a line feed behind the last line makes no difference
      rw [List.intercalate_singleton,
        ← hasStarred_append_blanks (v := ['\n']) (List.forall_mem_singleton.2 rfl), hl]
      rfl
    | cons l' ls =>
      rw [List.intercalate_cons_cons, List.append_assoc, List.singleton_append, hl,
        ih fun m hm => h m (List.mem_cons_of_mem l hm)]
      rfl

/-! ## Descriptions -/

theorem not_decoration_of_mem_head? {line : List Char} {c : Char}
    (h : c ∈ (stripDecoration line).head?) : isDecoration c = false := by
  have hhead := List.head?_dropWhile_not isDecoration line
  rw [show (line.dropWhile isDecoration).head? = some c from h] at hhead
  exact hhead

/-- A line is starred behind its decoration if that ends at a blank that is no space, with only
blanks between there and a star. -/
theorem isStarred_stripDecoration_iff {line : List Char} : isStarred (stripDecoration line) = true ↔
    ∃ lead gap rest, line = lead ++ (gap ++ '*' :: rest) ∧ (∀ c ∈ lead, isDecoration c = true) ∧
      (∀ c ∈ gap, isBlank c = true) ∧ ∃ c ∈ gap.head?, c ≠ ' ' := by
  constructor
  · intro h
    obtain ⟨rest, hrest⟩ := List.head?_eq_some_iff.1 (beq_iff_eq.1 h)
    have hline : line = line.takeWhile isDecoration ++
        ((stripDecoration line).takeWhile isBlank ++ '*' :: rest) := by
      rw [← hrest, List.takeWhile_append_dropWhile]
      exact List.takeWhile_append_dropWhile.symm
    refine ⟨_, _, rest, hline, fun c hc => List.mem_takeWhile_imp hc,
      fun c hc => List.mem_takeWhile_imp hc, ?_⟩
    cases hx : stripDecoration line with
    | nil =>
      rw [hx] at hrest
      cases hrest
    | cons c cs =>
      -- what follows the decoration is neither a space nor a star
      have hkept : isDecoration c = false :=
        not_decoration_of_mem_head? (show c ∈ (stripDecoration line).head? by rw [hx]; rfl)
      rw [hx] at hrest
      by_cases hblank : isBlank c = true
      · rw [List.takeWhile_cons_of_pos hblank]
        exact ⟨c, rfl, fun heq => absurd (heq ▸ hkept) (by decide)⟩
      · rw [List.dropWhile_cons_of_neg hblank, List.cons.injEq] at hrest
        exact absurd (hrest.1 ▸ hkept) (by decide)
  · rintro ⟨lead, gap, rest, rfl, hlead, hgap, c, hc, hspace⟩
    obtain ⟨gap, rfl⟩ := List.head?_eq_some_iff.1 hc
    have hblank := hgap c List.mem_cons_self
    have hdecoration : ¬isDecoration c = true := by
      rw [isDecoration, Bool.or_eq_true, beq_iff_eq, beq_iff_eq]
      rintro (rfl | rfl)
      · exact hspace rfl
      · exact absurd hblank (by decide)
    rw [stripDecoration, List.dropWhile_append_of_pos hlead, List.cons_append,
      List.dropWhile_cons_of_neg hdecoration, ← List.cons_append, isStarred,
      List.dropWhile_append_of_pos hgap]
    rfl

/-- A line of the description of a block comment is starred if and only if, in some line of what is
left without the markers, a blank that is no space stands behind the spaces and stars that lead the
line, with only blanks between there and a star. -/
theorem starred_line_iff {text : String} (hblock : isBlock text.toList = true) :
    (∃ line ∈ lines (description text).toList, isStarred line = true) ↔
      ∃ line ∈ lines (stripMarkers text.toList), ∃ lead gap rest,
        line = lead ++ (gap ++ '*' :: rest) ∧ (∀ c ∈ lead, isDecoration c = true) ∧
          (∀ c ∈ gap, isBlank c = true) ∧ ∃ c ∈ gap.head?, c ≠ ' ' := by
  have hlines : ∀ l ∈ (lines (stripMarkers text.toList)).map stripDecoration, '\n' ∉ l := by
    intro l hl
    obtain ⟨m, hm, rfl⟩ := List.mem_map.1 hl
    exact fun h => not_mem_of_mem_lines hm ((List.dropWhile_suffix isDecoration).mem h)
  rw [← List.any_eq_true, any_isStarred_lines, toList_description, descriptionChars, if_pos hblock,
    hasStarred_trim, hasStarred_intercalate hlines, List.any_map, List.any_eq_true]
  exact exists_congr fun line => and_congr_right fun _ => isStarred_stripDecoration_iff

/-- A star behind a tab, which stands behind the decoration, leads a line of the description. -/
theorem starred_line_of_tab :
    ∃ line ∈ lines (description "/* list:\n *\t* item\n */").toList, isStarred line = true :=
  (starred_line_iff rfl).2 ⟨" *\t* item".toList, by decide, [' ', '*'], ['\t'], " item".toList, rfl,
    List.forall_mem_cons.2 ⟨rfl, List.forall_mem_singleton.2 rfl⟩, List.forall_mem_singleton.2 rfl,
    '\t', rfl, by decide⟩

/-- The description of a comment that is indented by tabs keeps its stars. -/
theorem starred_line_of_tabIndent :
    ∃ c ∈ (Lexicon.lexemes "/*\n\t* foo\n*/").1, c.isComment = true ∧
      isBlock c.text.toList = true ∧
      ∃ line ∈ lines (description c.text).toList, isStarred line = true := by
  decide +kernel

end CStruct.Comment
