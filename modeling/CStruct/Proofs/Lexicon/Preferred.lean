import CStruct.Proofs.Lexicon.Scanner
import CStruct.Proofs.Pattern.Runs

/-!
# What the patterns for lexemes prefer

Each pattern of the lexicon prefers the text that the scanner measures: the first end marker of a
block comment, line comments as far as they go on, the longest keyword, the longest run.
-/

namespace CStruct

open Pattern

namespace Pattern

theorem ends_oneOrMore (p : Pattern) (c : Cursor) :
    (oneOrMore p).ends c = (p.ends c).flatMap (zeroOrMore p).ends := rfl

theorem flatMap_singleton_of {α β : Type} (p : α → Bool) (f : α → β) (l : List α) :
    (l.flatMap fun a => if p a then [f a] else []) = (l.filter p).map f := by
  induction l with
  | nil => rfl
  | cons a l ih =>
    rw [List.flatMap_cons, ih]
    by_cases h : p a = true
    · rw [if_pos h, List.filter_cons_of_pos h]
      rfl
    · rw [if_neg h, List.filter_cons_of_neg h]
      rfl

/-- What comes after certain characters. -/
theorem head?_chars_append (text : String) (ps : List Pattern) (c : Cursor) :
    ((concat (Lexicon.chars text ++ ps)).ends c).head? =
      if Scanner.startsWith text c.rest then ((concat ps).ends (c.skip text.length)).head?
      else none := by
  rw [ends_concat_append, Lexicon.chars, ends_singles, String.length_toList, Scanner.startsWith]
  split
  · rw [List.flatMap_singleton]
  · rfl

theorem head?_oneOrMore_char {set : CharSet} (hset : set.isEmpty = false) (c : Cursor) :
    ((oneOrMore (char set)).ends c).head? =
      (Scanner.run? set.holds c.rest).map fun n => c.skip n := by
  rw [ends_oneOrMore, ends_char, Scanner.run?, Scanner.runLength]
  cases hrest : c.rest with
  | nil => rfl
  | cons ch rest =>
    rw [List.head?_cons, Option.any_some, List.takeWhile_cons]
    by_cases hch : set.holds ch = true
    · rw [if_pos hch, if_pos hch, List.flatMap_singleton, head?_zeroOrMore_char hset,
        Cursor.rest_skip, hrest, List.drop_one, List.tail_cons, Cursor.skip_skip,
        List.length_cons, if_neg (Nat.succ_ne_zero _), Nat.add_comm 1]
      rfl
    · rw [if_neg hch, if_neg hch]
      rfl

end Pattern

namespace Lexicon

/-! ## Classes of characters -/

theorem holds_digit : digit.holds = Char.isDigit := by
  funext c
  rw [digit, CharSet.holds_ofRange, Bool.eq_iff_iff]
  simp only [Char.isDigit, Bool.and_eq_true, decide_eq_true_eq]
  exact Iff.rfl

private theorem val_underscore_iff {c : Char} :
    '_'.val ≤ c.val ∧ c.val ≤ '_'.val ↔ c = '_' :=
  ⟨fun h => Char.le_antisymm h.2 h.1, fun h => by simp [h]⟩

theorem holds_nameStart : nameStart.holds = Scanner.isNameStart := by
  funext c
  have le_iff (a b : Char) : a ≤ b ↔ a.val ≤ b.val := Iff.rfl
  rw [nameStart, CharSet.holds_ofRanges, Scanner.isNameStart, Bool.eq_iff_iff]
  simp only [List.any_cons, List.any_nil, Bool.or_false, Bool.or_eq_true, Bool.and_eq_true,
    decide_eq_true_eq, Scanner.isAlpha_iff, beq_iff_eq, le_iff, val_underscore_iff, or_assoc]

theorem holds_nameRest : nameRest.holds = Scanner.isNameRest := by
  funext c
  have le_iff (a b : Char) : a ≤ b ↔ a.val ≤ b.val := Iff.rfl
  rw [nameRest, CharSet.holds_ofRanges, Scanner.isNameRest, Bool.eq_iff_iff]
  simp only [List.any_cons, List.any_nil, Bool.or_false, Bool.or_eq_true, Bool.and_eq_true,
    decide_eq_true_eq, Char.isAlphanum, Scanner.isAlpha_iff, Char.isDigit, beq_iff_eq, le_iff,
    ge_iff_le, val_underscore_iff, or_assoc]

theorem holds_blank : CharSet.blank.holds = Text.isBlank := funext CharSet.holds_blank

theorem holds_inLine : CharSet.inLine.holds = Scanner.inLine := funext CharSet.holds_inLine

/-! ## Runs and single characters -/

theorem head?_number (c : Cursor) :
    (number.pattern.ends c).head? = (Scanner.run? Char.isDigit c.rest).map fun n => c.skip n := by
  rw [← holds_digit]
  exact head?_oneOrMore_char (by rfl) c

theorem head?_blanks (c : Cursor) :
    (blanks.pattern.ends c).head? = (Scanner.run? Text.isBlank c.rest).map fun n => c.skip n := by
  rw [← holds_blank]
  exact head?_oneOrMore_char (by rfl) c

theorem head?_name (c : Cursor) :
    (name.pattern.ends c).head? = (Scanner.name? c.rest).map fun n => c.skip n := by
  change ((concat [char nameStart, zeroOrMore (char nameRest)]).ends c).head? = _
  rw [ends_concat_cons, ends_char, holds_nameStart]
  cases hrest : c.rest with
  | nil => rfl
  | cons ch rest =>
    rw [List.head?_cons, Option.any_some, Scanner.name?]
    split
    · rw [List.flatMap_singleton, ends_concat_singleton,
        head?_zeroOrMore_char (by rfl), Cursor.rest_skip, hrest, List.drop_one,
        List.tail_cons, Cursor.skip_skip, holds_nameRest, Nat.add_comm 1]
      rfl
    · rfl

theorem head?_operator (c : Cursor) :
    (operator.pattern.ends c).head? = (Scanner.operator? c.rest).map fun n => c.skip n := by
  change ((char (.ofList ['[', ']', '{', '}', ';', ','])).ends c).head? = _
  rw [ends_char]
  cases hrest : c.rest with
  | nil => rfl
  | cons ch rest =>
    have hmem : ['[', ']', '{', '}', ';', ','].contains ch = true ↔ ch ∈ Scanner.operators := by
      simp only [Scanner.operators, List.contains_iff_mem, List.mem_cons, List.not_mem_nil,
        or_false]
      tauto
    rw [List.head?_cons, Option.any_some, CharSet.holds_ofList, Scanner.operator?]
    by_cases h : ch ∈ Scanner.operators
    · rw [if_pos (hmem.2 h), if_pos h]
      rfl
    · rw [if_neg (mt hmem.1 h), if_neg h]
      rfl

theorem head?_anything (c : Cursor) :
    (anything.pattern.ends c).head? =
      if c.rest.head?.any Scanner.inLine then some (c.skip 1) else none := by
  change ((char .inLine).ends c).head? = _
  rw [ends_char, holds_inLine]
  split <;> rfl

/-! ## Comments -/

/-- Reading as little as possible up to an end marker. -/
theorem head?_toBlockEnd (c : Cursor) :
    ((concat (zeroOrMoreLazy (char .all) :: chars "*/")).ends c).head? =
      (Scanner.blockEnd? c.rest).map fun n => c.skip n := by
  have hfits (d : Cursor) : (concat (chars "*/")).ends d =
      if Scanner.startsWith "*/" d.rest then [d.skip 2] else [] := ends_singles "*/".toList d
  rw [ends_concat_cons]
  induction hlen : c.rest.length generalizing c with
  | zero =>
    rw [zeroOrMoreLazy, ends_zeroOrMore (by rfl), if_neg nofun, List.flatMap_cons,
      ends_char, hfits, List.eq_nil_of_length_eq_zero hlen]
    rfl
  | succ n ih =>
    obtain ⟨ch, rest, hrest⟩ := List.exists_cons_of_length_eq_add_one hlen
    have hnext : (c.skip 1).rest = rest := by rw [Cursor.rest_skip, hrest]; rfl
    rw [zeroOrMoreLazy, ends_zeroOrMore (by rfl), if_neg nofun, List.flatMap_cons,
      ends_char, hfits, hrest, List.head?_cons, Option.any_some, CharSet.holds_all, if_pos rfl,
      List.flatMap_singleton, ← zeroOrMoreLazy, List.head?_append,
      ih _ (by rw [hnext]; simpa [hrest] using hlen), hnext, Scanner.blockEnd?]
    split
    · rfl
    · rw [List.head?_nil, Option.none_or, Option.map_map]
      simp only [Cursor.skip_skip, Nat.add_comm 1]
      rfl

theorem head?_blockComment (c : Cursor) :
    (blockComment.pattern.ends c).head? =
      (Scanner.blockComment? c.rest).map fun n => c.skip n := by
  change ((concat (chars "/*" ++ zeroOrMoreLazy (.char .all) :: chars "*/")).ends c).head? = _
  rw [head?_chars_append, head?_toBlockEnd, Cursor.rest_skip, Scanner.blockComment?]
  split
  · rw [Option.map_map]
    simp only [Cursor.skip_skip, Nat.add_comm _ 2, Function.comp_def]
    rfl
  · rfl

/-- Going on with line comments below the line that the cursor is at the end of. -/
def commentBelow : Pattern :=
  concat (chars "
" ++ zeroOrMore (.char .blank) :: (chars "//" ++ [zeroOrMore (.char .inLine)]))

/-- The cursor at the end of its line. -/
def lineStop (c : Cursor) : Cursor := c.skip (Scanner.runLength Scanner.inLine c.rest)

theorem rest_lineStop (c : Cursor) : (lineStop c).rest = c.rest.dropWhile Scanner.inLine := by
  rw [lineStop, Cursor.rest_skip, Scanner.drop_runLength]

theorem head?_inLine (c : Cursor) :
    ((concat [zeroOrMore (.char .inLine)]).ends c).head? = some (lineStop c) := by
  rw [ends_concat_singleton, head?_zeroOrMore_char (by rfl), holds_inLine]
  rfl

/-- A line comment, up to the end of its line. -/
theorem head?_lineComment (c : Cursor) :
    ((concat (chars "//" ++ [zeroOrMore (.char .inLine)])).ends c).head? =
      if Scanner.startsWith "//" c.rest then some (lineStop (c.skip 2)) else none := by
  rw [head?_chars_append, head?_inLine]
  rfl

/-- Of the blanks before a marker, none can be left out. -/
theorem startsWith_slashes_of_blank {cs : List Char} {n : Nat}
    (hn : n < Scanner.runLength Text.isBlank cs) : Scanner.startsWith "//" (cs.drop n) = false := by
  refine Bool.eq_false_iff.2 fun hslash => ?_
  obtain ⟨rest, hrest⟩ := List.isPrefixOf_iff_prefix.1 hslash
  have hhead : (cs.drop n).head? = some '/' := by rw [← hrest]; rfl
  rw [List.head?_drop] at hhead
  have hget : cs[n]? = (cs.takeWhile Text.isBlank)[n]? := by
    conv_lhs => rw [← List.takeWhile_append_dropWhile (p := Text.isBlank) (l := cs)]
    exact List.getElem?_append_left hn
  have hmem : '/' ∈ cs.takeWhile Text.isBlank := List.mem_of_getElem? (hget ▸ hhead)
  exact absurd (List.all_eq_true.1 List.all_takeWhile _ hmem) (by decide)

theorem head?_commentBelow (c : Cursor) :
    (commentBelow.ends (lineStop c)).head? =
      (Scanner.commentBelow? c.rest).map fun further =>
        lineStop (c.skip (c.rest.length - further.length)) := by
  rw [commentBelow, head?_chars_append, rest_lineStop, Scanner.commentBelow?]
  have hline := Scanner.runLength_add Scanner.inLine c.rest
  cases hstop : c.rest.dropWhile Scanner.inLine with
  | nil => rfl
  | cons ch below =>
    have hch : ch = '\n' := by
      have := List.head?_dropWhile_not Scanner.inLine c.rest
      rw [hstop] at this
      simpa [Scanner.inLine] using this
    subst hch
    rw [hstop, List.length_cons] at hline
    have hblank := Scanner.runLength_add Text.isBlank below
    -- `d` is at the start of the line below
    obtain ⟨d, hd⟩ : ∃ d, (lineStop c).skip "\n".length = d := ⟨_, rfl⟩
    have hdrest : d.rest = below := by
      rw [← hd, Cursor.rest_skip, rest_lineStop, hstop]
      rfl
    have hdskip : d = c.skip (Scanner.runLength Scanner.inLine c.rest + 1) := by
      rw [← hd, lineStop, Cursor.skip_skip]
      rfl
    rw [if_pos (by rfl), hd, ends_concat_cons, List.head?_flatMap,
      findSome?_zeroOrMore_char (by rfl), head?_lineComment, holds_blank, hdrest,
      Cursor.rest_skip, hdrest, ← Scanner.runLength, Scanner.drop_runLength]
    · change _ = (if Scanner.startsWith "//" (below.dropWhile Text.isBlank) then
          some ((below.dropWhile Text.isBlank).drop 2) else none).map _
      by_cases hslash : Scanner.startsWith "//" (below.dropWhile Text.isBlank) = true
      · have hlen : 2 ≤ (below.dropWhile Text.isBlank).length :=
          (List.isPrefixOf_iff_prefix.1 hslash).length_le
        rw [if_pos hslash, if_pos hslash, Option.map_some, hdskip, Cursor.skip_skip,
          Cursor.skip_skip, List.length_drop]
        congr 3
        omega
      · rw [if_neg hslash, if_neg hslash]
        rfl
    · intro n hn
      rw [holds_blank, hdrest] at hn
      rw [head?_lineComment, Cursor.rest_skip, hdrest, startsWith_slashes_of_blank hn]
      rfl

/-- From the end of a line comment on, as far as there are line comments. -/
theorem head?_commentsBelow (c : Cursor) :
    ((zeroOrMore commentBelow).ends (lineStop c)).head? =
      some (c.skip (Scanner.lineEnd c.rest)) := by
  induction hlen : c.rest.length using Nat.strongRecOn generalizing c with
  | ind n ih =>
    rw [head?_zeroOrMore (by rfl), head?_commentBelow]
    cases hfurther : Scanner.commentBelow? c.rest with
    | none =>
      rw [Scanner.lineEnd_of_none hfurther]
      rfl
    | some further =>
      have hlt := Scanner.length_of_mem_commentBelow? hfurther
      have hrest : (c.skip (c.rest.length - further.length)).rest = further := by
        rw [Cursor.rest_skip]
        exact (List.suffix_iff_eq_drop.1 (Scanner.suffix_of_mem_commentBelow? hfurther)).symm
      change ((zeroOrMore commentBelow).ends
        (lineStop (c.skip (c.rest.length - further.length)))).head? = _
      rw [ih _ (by rw [hrest]; omega) _ rfl, hrest, Cursor.skip_skip,
        Scanner.lineEnd_of_some hfurther]

theorem head?_lineComments (c : Cursor) :
    (lineComments.pattern.ends c).head? =
      (Scanner.lineComments? c.rest).map fun n => c.skip n := by
  change ((concat (chars "//" ++ [zeroOrMore (.char .inLine), zeroOrMore commentBelow])).ends
    c).head? = _
  rw [head?_chars_append, Scanner.lineComments?]
  split
  · have hstar : ((zeroOrMore commentBelow).ends ((c.skip "//".length).skip
        ((c.skip "//".length).rest.takeWhile Scanner.inLine).length)).head? = _ :=
      head?_commentsBelow (c.skip "//".length)
    rw [ends_concat_cons, List.head?_flatMap, ends_zeroOrMore_char (by rfl),
      List.range_succ, List.reverse_append, List.reverse_singleton, List.singleton_append,
      List.map_cons, List.findSome?_cons, ends_concat_singleton, holds_inLine, hstar,
      Cursor.rest_skip, Cursor.skip_skip, Nat.add_comm _ (Scanner.lineEnd _)]
    rfl
  · rfl

/-! ## Keywords -/

theorem isWordChar_of_mem_typeKeywords {word : String} (h : word ∈ typeKeywords) :
    word.toList.head?.any Text.isWordChar = true ∧
      word.toList.getLast?.any Text.isWordChar = true := by
  have hall : ∀ word ∈ typeKeywords, word.toList.head?.any Text.isWordChar = true ∧
      word.toList.getLast?.any Text.isWordChar = true := by decide +kernel
  exact hall word h

/-- No keyword goes on with a longer one that comes later. -/
theorem pairwise_typeKeywords :
    typeKeywords.Pairwise fun earlier later => ¬earlier.toList <+: later.toList := by
  decide +kernel

theorem atWordBoundary_of_typeKeyword {word : String} (hword : word ∈ typeKeywords) {c : Cursor}
    (h : Scanner.startsWith word c.rest = true) :
    c.atWordBoundary = !c.before.any Text.isWordChar := by
  obtain ⟨rest, hrest⟩ := List.isPrefixOf_iff_prefix.1 h
  have hfirst : c.rest.head?.any Text.isWordChar = true := by
    have hhead := (isWordChar_of_mem_typeKeywords hword).1
    cases hchars : word.toList with
    | nil => rw [hchars] at hhead; cases hhead
    | cons ch chs => rw [hchars] at hhead; rw [← hrest, hchars]; exact hhead
  rw [Cursor.atWordBoundary, hfirst]
  cases c.before.any Text.isWordChar <;> rfl

theorem atWordBoundary_skip_typeKeyword {word : String} (hword : word ∈ typeKeywords) {c : Cursor}
    (h : Scanner.startsWith word c.rest = true) :
    (c.skip word.length).atWordBoundary =
      !(c.rest.drop word.length).head?.any Text.isWordChar := by
  have hstart := List.isPrefixOf_iff_prefix.1 h
  have htake : c.rest.take word.length = word.toList := by
    rw [← String.length_toList]
    exact (List.prefix_iff_eq_take.1 hstart).symm
  have hle : word.length ≤ c.rest.length := String.length_toList ▸ hstart.length_le
  have hpos := Scanner.length_pos_of_mem_typeKeywords hword
  rw [Cursor.atWordBoundary, Cursor.before_skip hpos hle, htake,
    (isWordChar_of_mem_typeKeywords hword).2, Cursor.rest_skip]
  cases (c.rest.drop word.length).head?.any Text.isWordChar <;> rfl

theorem ends_wordBoundary (c : Cursor) :
    wordBoundary.ends c = if c.atWordBoundary then [c] else [] := rfl

theorem ends_typeKeyword (c : Cursor) :
    typeKeyword.pattern.ends c =
      if c.before.any Text.isWordChar then []
      else (typeKeywords.filter (Scanner.standsAlone c.rest)).map fun word =>
        c.skip word.length := by
  have hword (word : String) (hword : word ∈ typeKeywords) :
      ((literal word).ends c).flatMap wordBoundary.ends =
        if Scanner.standsAlone c.rest word then [c.skip word.length] else [] := by
    rw [ends_literal, ← Scanner.startsWith, Scanner.standsAlone]
    by_cases h : Scanner.startsWith word c.rest = true
    · rw [if_pos h, List.flatMap_singleton, ends_wordBoundary,
        atWordBoundary_skip_typeKeyword hword h, h, Bool.true_and]
    · rw [if_neg h, Bool.eq_false_iff.2 h]
      rfl
  have hwords : (concat [oneOf (typeKeywords.map literal), wordBoundary]).ends c =
      (typeKeywords.filter (Scanner.standsAlone c.rest)).map fun word => c.skip word.length := by
    have hlast : (concat [wordBoundary]).ends = wordBoundary.ends :=
      funext (ends_concat_singleton wordBoundary)
    rw [ends_concat_cons, ends_oneOf, List.flatMap_map, List.flatMap_assoc, hlast,
      List.flatMap_congr hword, flatMap_singleton_of]
  change (concat [wordBoundary, oneOf (typeKeywords.map literal), wordBoundary]).ends c = _
  rw [ends_concat_cons, ends_wordBoundary]
  -- only where some keyword stands does the boundary in front of it matter
  cases hfilter : typeKeywords.filter (Scanner.standsAlone c.rest) with
  | nil =>
    rw [hfilter, List.map_nil] at hwords
    split <;> simp [hwords]
  | cons word words =>
    have hmem := List.mem_filter.1 (hfilter ▸ List.mem_cons_self (a := word) (l := words))
    rw [atWordBoundary_of_typeKeyword hmem.1 (Bool.and_eq_true_iff.1 hmem.2).1, ← hfilter,
      ← hwords]
    cases c.before.any Text.isWordChar
    · exact List.flatMap_singleton _ _
    · rfl

theorem head?_filter_typeKeywords (text : List Char) :
    (typeKeywords.filter (Scanner.standsAlone text)).head? =
      (typeKeywords.filter (Scanner.standsAlone text)).argmax String.length := by
  have hlongest : (typeKeywords.filter (Scanner.standsAlone text)).Pairwise
      fun earlier later => later.length ≤ earlier.length := by
    refine (pairwise_typeKeywords.filter _).imp_of_mem fun {earlier later} hearlier hlater hnot => ?_
    have hstart {word : String} (h : word ∈ typeKeywords.filter (Scanner.standsAlone text)) :
        word.toList <+: text := by
      have := (List.mem_filter.1 h).2
      rw [Scanner.standsAlone, Bool.and_eq_true] at this
      exact List.isPrefixOf_iff_prefix.1 this.1
    -- of two keywords at the same place one goes on with the other
    rcases List.prefix_or_prefix_of_prefix (hstart hearlier) (hstart hlater) with h | h
    · exact absurd h hnot
    · rw [← String.length_toList, ← String.length_toList]
      exact h.length_le
  cases hwords : typeKeywords.filter (Scanner.standsAlone text) with
  | nil => rfl
  | cons word words =>
    rw [hwords, List.pairwise_cons] at hlongest
    refine (List.mem_argmax_iff.2 ⟨List.mem_cons_self, ?_, ?_⟩).symm
    · intro other hother
      rcases List.mem_cons.1 hother with rfl | hother
      · exact Nat.le_refl _
      · exact hlongest.1 other hother
    · intro other _ _
      rw [List.idxOf_cons_self]
      exact Nat.zero_le _

theorem head?_typeKeyword (c : Cursor) :
    (typeKeyword.pattern.ends c).head? =
      ((Scanner.keyword? c.before c.rest).map String.length).map fun n => c.skip n := by
  rw [ends_typeKeyword, Scanner.keyword?, Option.map_map]
  split
  · rfl
  · rw [List.head?_map, head?_filter_typeKeywords]
    rfl

end Lexicon

end CStruct
