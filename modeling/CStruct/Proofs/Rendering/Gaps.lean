import CStruct.Proofs.Rendering.Basic
import Mathlib.Tactic.IntervalCases

/-!
# The scanner passes over gaps

A gap is cut into pieces in other places than between its separators: blanks in a row are one piece,
and a line comment goes on with the next one. Whatever the pieces are, what is left of a gap behind
one of them is a gap again, and no piece of a gap goes into the lexeme behind it.
-/

namespace CStruct.Rendering

open Scanner

/-! ## Characters -/

theorem isWordChar_of_isBlank {c : Char} (h : Text.isBlank c = true) : Text.isWordChar c = false := by
  unfold Text.isBlank at h
  unfold Text.isWordChar
  generalize c.toNat = n at h ⊢
  simp only [Bool.or_eq_true, Bool.and_eq_true, decide_eq_true_eq, beq_iff_eq] at h
  rcases h with (((((((((h | rfl) | rfl) | rfl) | rfl) | h) | rfl) | rfl) | rfl) | rfl) | rfl
  · obtain ⟨hlow, hhigh⟩ := h
    interval_cases n <;> rfl
  · rfl
  · decide
  · decide
  · decide
  · obtain ⟨hlow, hhigh⟩ := h
    interval_cases n <;> decide
  all_goals decide

theorem isBlank_of_isWordChar {c : Char} (h : Text.isWordChar c = true) : Text.isBlank c = false :=
  Bool.eq_false_iff.2 fun hblank => Bool.false_ne_true ((isWordChar_of_isBlank hblank).symm.trans h)

theorem isWordChar_of_isNameRest {c : Char} (h : isNameRest c = true) : Text.isWordChar c = true := by
  have hrange : (48 ≤ c.toNat ∧ c.toNat ≤ 57) ∨ (65 ≤ c.toNat ∧ c.toNat ≤ 90) ∨ c.toNat = 95 ∨
      (97 ≤ c.toNat ∧ c.toNat ≤ 122) := by
    unfold isNameRest at h
    simp only [Char.isAlphanum, isAlpha_iff, Char.isDigit,
      Bool.or_eq_true, Bool.and_eq_true, decide_eq_true_eq, beq_iff_eq, ge_iff_le,
      UInt32.le_iff_toNat_le] at h
    rcases h with ((h | h) | h) | rfl
    · exact .inr (.inl h)
    · exact .inr (.inr (.inr h))
    · exact .inl h
    · exact .inr (.inr (.inl rfl))
  unfold Text.isWordChar
  generalize c.toNat = n at hrange ⊢
  rcases hrange with ⟨h₁, h₂⟩ | ⟨h₁, h₂⟩ | rfl | ⟨h₁, h₂⟩
  · interval_cases n <;> rfl
  · interval_cases n <;> rfl
  · rfl
  · interval_cases n <;> rfl

theorem isNameRest_of_isDigit {c : Char} (h : c.isDigit = true) : isNameRest c = true := by
  rw [isNameRest, Char.isAlphanum, h, Bool.or_true, Bool.true_or]

theorem isBlank_of_isDigit {c : Char} (h : c.isDigit = true) : Text.isBlank c = false :=
  isBlank_of_isWordChar (isWordChar_of_isNameRest (isNameRest_of_isDigit h))

/-! ## Pieces of gaps -/

-- What begins neither with a blank nor with a comment.
def Solid (cs : List Char) : Prop := ∀ c ∈ cs.head?, Text.isBlank c = false ∧ c ≠ '/'

theorem runLength_of_head {p : Char → Bool} {cs : List Char} (h : ∀ c ∈ cs.head?, p c = false) :
    runLength p cs = 0 := by
  cases cs with
  | nil => rfl
  | cons c cs =>
    rw [runLength, List.takeWhile_cons_of_neg]
    · rfl
    · rw [h c rfl]
      exact Bool.false_ne_true

theorem runLength_cons {p : Char → Bool} {c : Char} {cs : List Char} (h : p c = true) :
    runLength p (c :: cs) = runLength p cs + 1 := by
  rw [runLength, List.takeWhile_cons_of_pos h]
  rfl

theorem runLength_append {p : Char → Bool} {cs ds : List Char} (h : cs.all p = true)
    (hds : ∀ c ∈ ds.head?, p c = false) : runLength p (cs ++ ds) = cs.length := by
  induction cs with
  | nil => exact runLength_of_head hds
  | cons c cs ih =>
    rw [List.all_cons, Bool.and_eq_true] at h
    rw [List.cons_append, runLength_cons h.1, ih h.2]
    rfl

/-- The blanks at the start of a gap. -/
theorem gap_blanks {gap rest : List Char} (h : Gap gap) (hrest : Solid rest) :
    runLength Text.isBlank (gap ++ rest) ≤ gap.length ∧
      Gap (gap.drop (runLength Text.isBlank (gap ++ rest))) ∧
      ∀ c ∈ (gap.drop (runLength Text.isBlank (gap ++ rest))).head?, Text.isBlank c = false := by
  induction h with
  | nil =>
    have hzero : runLength Text.isBlank ([] ++ rest) = 0 := runLength_of_head fun c hc => (hrest c hc).1
    rw [hzero]
    exact ⟨Nat.le_refl _, .nil, nofun⟩
  | @cons separator gap hseparator hgap ih =>
    cases hseparator with
    | @blank c hc =>
      rw [List.singleton_append, List.cons_append, runLength_cons hc, List.drop_succ_cons,
        List.length_cons]
      exact ⟨Nat.succ_le_succ ih.1, ih.2⟩
    | blockComment hbody =>
      rw [runLength_of_head (by rintro c ⟨⟩; rfl)]
      exact ⟨Nat.zero_le _, .cons (.blockComment hbody) hgap, by rintro c ⟨⟩; rfl⟩
    | lineComment hbody =>
      rw [runLength_of_head (by rintro c ⟨⟩; rfl)]
      exact ⟨Nat.zero_le _, .cons (.lineComment hbody) hgap, by rintro c ⟨⟩; rfl⟩

theorem blockEnd?_append {body rest : List Char} (h : ¬['*', '/'] <:+: body) :
    blockEnd? (body ++ ('*' :: '/' :: rest)) = some (body.length + 2) := by
  induction body with
  | nil => rfl
  | cons c body ih =>
    have hmarker : startsWith "*/" (c :: (body ++ ('*' :: '/' :: rest))) = false := by
      rw [startsWith, Bool.eq_false_iff]
      intro hstart
      obtain ⟨hc, hnext⟩ := List.cons_prefix_cons.1 (List.isPrefixOf_iff_prefix.1 hstart)
      cases body with
      | nil =>
        obtain ⟨hslash, -⟩ := List.cons_prefix_cons.1 hnext
        exact absurd hslash (by decide)
      | cons d body =>
        obtain ⟨hslash, -⟩ := List.cons_prefix_cons.1 hnext
        subst hc
        subst hslash
        exact h ⟨[], body, rfl⟩
    have hbody : ¬['*', '/'] <:+: body := fun hends => h (hends.trans (List.suffix_cons c body).isInfix)
    rw [List.cons_append, blockEnd?, hmarker, if_neg Bool.false_ne_true, ih hbody]
    rfl

section LineComments

variable {body gap rest : List Char}

theorem dropWhile_inLine (hbody : body.all inLine = true) (rest : List Char) :
    (body ++ '\n' :: rest).dropWhile inLine = '\n' :: rest := by
  rw [← drop_runLength, runLength_append hbody (by rintro c ⟨⟩; rfl), List.drop_left]

/-- A line comment ends at its line unless a line comment stands below. -/
theorem lineEnd_of_last (hbody : body.all inLine = true)
    (hbelow : startsWith "//" (rest.dropWhile Text.isBlank) = false) :
    lineEnd (body ++ '\n' :: rest) = body.length := by
  have hnone : commentBelow? (body ++ '\n' :: rest) = none := by
    rw [commentBelow?, dropWhile_inLine hbody]
    show (if startsWith "//" (rest.dropWhile Text.isBlank) then _ else none) = none
    rw [hbelow]
    rfl
  rw [lineEnd_of_none hnone, runLength_append hbody (by rintro c ⟨⟩; rfl)]

/-- A line comment goes on with the one below it. -/
theorem lineEnd_of_below {below : List Char} (hbody : body.all inLine = true)
    (hbelow : rest.dropWhile Text.isBlank = '/' :: '/' :: below) :
    lineEnd (body ++ '\n' :: rest) =
      body.length + 1 + (rest.length - below.length) + lineEnd below := by
  have hsome : commentBelow? (body ++ '\n' :: rest) = some below := by
    rw [commentBelow?_eq_some_iff]
    refine ⟨'\n', rest, dropWhile_inLine hbody rest, ?_, ?_⟩
    · rw [hbelow]
      rfl
    · rw [hbelow]
      rfl
  have hlength : below.length ≤ rest.length := by
    have := (List.dropWhile_suffix (l := rest) Text.isBlank).length_le
    rw [hbelow, List.length_cons, List.length_cons] at this
    omega
  rw [lineEnd_of_some hsome, List.length_append, List.length_cons]
  omega

/-- A line comment in front of a gap ends in the gap, and leaves a gap. The induction is on the length
of the gap, since the comment may go on with one that stands in it. -/
theorem lineEnd_gap (hbody : body.all inLine = true) (hgap : Gap gap) (hrest : Solid rest) :
    lineEnd (body ++ '\n' :: (gap ++ rest)) ≤ body.length + gap.length ∧
      Gap ((body ++ '\n' :: gap).drop (lineEnd (body ++ '\n' :: (gap ++ rest)))) := by
  induction hlen : gap.length using Nat.strongRecOn generalizing body gap with
  | ind n ih =>
    subst hlen
    obtain ⟨hle, hgap', hsolid⟩ := gap_blanks hgap hrest
    generalize hblanks : runLength Text.isBlank (gap ++ rest) = k at hle hgap' hsolid
    have hbelow : (gap ++ rest).dropWhile Text.isBlank = gap.drop k ++ rest := by
      rw [← drop_runLength, hblanks, List.drop_append_of_le_length hle]
    -- unless a line comment comes next, this one ends at its line feed
    have hlast (h : startsWith "//" (gap.drop k ++ rest) = false) :
        lineEnd (body ++ '\n' :: (gap ++ rest)) ≤ body.length + gap.length ∧
          Gap ((body ++ '\n' :: gap).drop (lineEnd (body ++ '\n' :: (gap ++ rest)))) := by
      rw [lineEnd_of_last hbody (by rw [hbelow, h]), List.drop_left]
      exact ⟨Nat.le_add_right _ _, @Gap.cons ['\n'] _ (.blank (by decide)) hgap⟩
    generalize hg : gap.drop k = g at hgap' hsolid hbelow hlast
    cases hgap' with
    | nil =>
      refine hlast ?_
      rw [Bool.eq_false_iff]
      intro hstart
      obtain ⟨more, hmore⟩ := List.isPrefixOf_iff_prefix.1 hstart
      exact (hrest '/' (by rw [← List.nil_append rest, ← hmore]; rfl)).2 rfl
    | cons hseparator hgap'' =>
      cases hseparator with
      | blank hc =>
        rw [hsolid _ rfl] at hc
        cases hc
      | blockComment => exact hlast rfl
      | @lineComment body' hbody' =>
        -- a line comment below goes on with this one, and the gap behind it is shorter
        rename_i gap''
        have hlong : gap''.length + body'.length + 3 + k = gap.length := by
          have := congrArg List.length hg
          simp only [List.length_drop, List.length_append, List.length_cons, List.length_nil] at this
          omega
        obtain ⟨hle', hgap'⟩ := ih gap''.length (by omega) hbody' hgap'' rfl
        have hskip : body.length + 1 +
            ((gap ++ rest).length - (body' ++ '\n' :: (gap'' ++ rest)).length) =
              body.length + (k + 3) := by
          simp only [List.length_append, List.length_cons]
          omega
        have hdrop : (body ++ '\n' :: gap).drop (body.length + (k + 3)) = body' ++ '\n' :: gap'' := by
          calc (body ++ '\n' :: gap).drop (body.length + (k + 3))
              = ('\n' :: gap).drop (k + 3) := List.drop_length_add_append _
            _ = (gap.drop k).drop 2 := by rw [List.drop_succ_cons, List.drop_drop]
            _ = body' ++ '\n' :: gap'' := by rw [hg]; simp
        have hnext : (gap ++ rest).dropWhile Text.isBlank =
            '/' :: '/' :: (body' ++ '\n' :: (gap'' ++ rest)) := by
          rw [hbelow]
          simp
        rw [lineEnd_of_below hbody hnext, hskip, ← List.drop_drop, hdrop]
        exact ⟨by omega, hgap'⟩

end LineComments

/-! ## Whole gaps -/

section FirstCharacter

variable {before : Option Char} {c : Char} {cs : List Char}

theorem no_comment (cs : List Char) (hc : c ≠ '/') :
    blockComment? (c :: cs) = none ∧ lineComments? (c :: cs) = none := by
  have hstart (d : Char) : ['/', d].isPrefixOf (c :: cs) = false := by
    rw [List.isPrefixOf_cons_cons, beq_eq_false_iff_ne.2 (Ne.symm hc), Bool.false_and]
  constructor
  · rw [blockComment?, startsWith, show "/*".toList = ['/', '*'] from rfl, hstart]
    rfl
  · rw [lineComments?, startsWith, show "//".toList = ['/', '/'] from rfl, hstart]
    rfl

theorem no_run {p : Char → Bool} (hc : p c = false) : run? p (c :: cs) = none := by
  rw [run?, runLength_of_head (by rintro _ ⟨⟩; exact hc)]
  rfl

theorem no_keyword (hc : Text.isWordChar c = false) : keyword? before (c :: cs) = none := by
  cases hword : keyword? before (c :: cs) with
  | none => rfl
  | some word =>
    obtain ⟨hmem, hstands⟩ := mem_typeKeywords_of_mem_keyword? hword
    obtain ⟨rest, hrest⟩ := List.isPrefixOf_iff_prefix.1 (Bool.and_eq_true_iff.1 hstands).1
    have hhead := (Lexicon.isWordChar_of_mem_typeKeywords hmem).1
    cases hchars : word.toList with
    | nil =>
      rw [hchars] at hhead
      cases hhead
    | cons d ds =>
      rw [hchars] at hhead hrest
      cases hrest
      rw [show Text.isWordChar c = true from hhead] at hc
      cases hc

theorem no_name (hc : isNameStart c = false) : name? (c :: cs) = none := by
  rw [name?, hc]
  rfl

theorem no_operator (hc : c ∉ operators) : operator? (c :: cs) = none := by
  rw [operator?, if_neg hc]

theorem isNameRest_of_isNameStart (h : isNameStart c = true) : isNameRest c = true := by
  unfold isNameStart at h
  unfold isNameRest Char.isAlphanum
  cases halpha : c.isAlpha
  · rw [halpha, Bool.false_or] at h
    rw [h, Bool.or_true]
  · rfl

theorem isNameRest_of_not_isWordChar (h : Text.isWordChar c = false) : isNameRest c = false :=
  Bool.eq_false_iff.2 fun hc => Bool.false_ne_true (h.symm.trans (isWordChar_of_isNameRest hc))

theorem isNameStart_of_not_isWordChar (h : Text.isWordChar c = false) : isNameStart c = false := by
  have hrest := isNameRest_of_not_isWordChar h
  exact Bool.eq_false_iff.2 fun hc =>
    Bool.false_ne_true (hrest.symm.trans (isNameRest_of_isNameStart hc))

theorem isDigit_of_not_isWordChar (h : Text.isWordChar c = false) : c.isDigit = false := by
  have hrest := isNameRest_of_not_isWordChar h
  exact Bool.eq_false_iff.2 fun hc =>
    Bool.false_ne_true (hrest.symm.trans (isNameRest_of_isDigit hc))

theorem pieceAt_blank (hc : Text.isBlank c = true) :
    pieceAt before (c :: cs) = (none, runLength Text.isBlank (c :: cs)) := by
  have hword := isWordChar_of_isBlank hc
  have hslash : c ≠ '/' := by
    rintro rfl
    cases hc
  have hoperator : c ∉ operators := by
    intro hmem
    have hall : operators.all (!Text.isBlank ·) = true := by decide
    have hplain := List.all_eq_true.1 hall c hmem
    rw [hc] at hplain
    cases hplain
  have hrun : run? Text.isBlank (c :: cs) = some (runLength Text.isBlank (c :: cs)) := by
    rw [run?, if_neg]
    rw [runLength_cons hc]
    exact Nat.succ_ne_zero _
  simp only [pieceAt, measures, no_comment cs hslash, no_run (isDigit_of_not_isWordChar hword),
    no_keyword hword, no_name (isNameStart_of_not_isWordChar hword), no_operator hoperator, hrun,
    List.findSome?_cons, Option.map_none, Option.map_some, Option.getD_some]

end FirstCharacter

/-- A piece at the start of a gap is no lexeme but a comment, and leaves a gap. -/
theorem pieceAt_gap (before : Option Char) {gap rest : List Char} (hgap : Gap gap) (hne : gap ≠ [])
    (hrest : Solid rest) :
    (pieceAt before (gap ++ rest)).2 ≤ gap.length ∧
      Gap (gap.drop (pieceAt before (gap ++ rest)).2) ∧
      ∀ kind ∈ (pieceAt before (gap ++ rest)).1, kind = .comment := by
  cases hgap with
  | nil => exact absurd rfl hne
  | @cons separator gap hseparator hgap =>
    cases hseparator with
    | @blank c hc =>
      have hall : Gap ([c] ++ gap) := .cons (.blank hc) hgap
      have hpiece : pieceAt before ([c] ++ gap ++ rest) = _ := pieceAt_blank hc
      obtain ⟨hle, hleft, -⟩ := gap_blanks hall hrest
      rw [hpiece]
      exact ⟨hle, hleft, nofun⟩
    | @blockComment body hbody =>
      have hend : blockComment? ('/' :: '*' :: (body ++ ['*', '/']) ++ gap ++ rest) =
          some (body.length + 2 + 2) := by
        rw [blockComment?, if_pos (by rfl)]
        show (blockEnd? (body ++ ['*', '/'] ++ gap ++ rest)).map _ = _
        rw [List.append_assoc, List.append_assoc, List.cons_append, List.cons_append,
          List.nil_append, blockEnd?_append hbody]
        rfl
      have hpiece : pieceAt before ('/' :: '*' :: (body ++ ['*', '/']) ++ gap ++ rest) =
          (some .comment, body.length + 2 + 2) := by
        rw [pieceAt, measures, List.findSome?_cons, hend]
        rfl
      have hlength : ('/' :: '*' :: (body ++ ['*', '/'])).length = body.length + 2 + 2 := by simp
      rw [hpiece, List.drop_left' hlength, List.length_append, hlength]
      exact ⟨Nat.le_add_right _ _, hgap, by rintro _ ⟨⟩; rfl⟩
    | @lineComment body hbody =>
      obtain ⟨hle, hleft⟩ := lineEnd_gap hbody hgap hrest
      have hends : lineComments? ('/' :: '/' :: (body ++ ['\n']) ++ gap ++ rest) =
          some (lineEnd (body ++ '\n' :: (gap ++ rest)) + 2) := by
        rw [lineComments?, if_pos (by rfl)]
        show some (lineEnd (body ++ ['\n'] ++ gap ++ rest) + 2) = _
        rw [List.append_assoc, List.append_assoc]
        rfl
      have hblock : blockComment? ('/' :: '/' :: (body ++ ['\n']) ++ gap ++ rest) = none := rfl
      have hpiece : pieceAt before ('/' :: '/' :: (body ++ ['\n']) ++ gap ++ rest) =
          (some .comment, lineEnd (body ++ '\n' :: (gap ++ rest)) + 2) := by
        rw [pieceAt, measures, List.findSome?_cons, hblock, List.findSome?_cons, hends]
        rfl
      have hdrop : ('/' :: '/' :: (body ++ ['\n']) ++ gap).drop 2 = body ++ '\n' :: gap := by simp
      rw [hpiece, Nat.add_comm _ 2, ← List.drop_drop, hdrop]
      refine ⟨?_, hleft, by rintro _ ⟨⟩; rfl⟩
      simp only [List.length_append, List.length_cons, List.length_nil]
      omega

-- What is not a comment.
def tokensOf (ls : List Lexeme) : List Lexeme := ls.filter fun l => !l.isComment

/-- No gap makes a lexeme other than comments. The induction is on the length of the gap: a piece of it
may be of any length, but ends within it. -/
theorem scan_gap {gap rest : List Char} (hgap : Gap gap) (hrest : Solid rest) (before : Option Char)
    (p : Position) :
    tokensOf (scan before p (gap ++ rest)) =
      tokensOf (scan (gap.getLast?.or before) (p.after gap) rest) := by
  induction hlen : gap.length using Nat.strongRecOn generalizing gap before p with
  | ind n ih =>
    subst hlen
    by_cases hne : gap = []
    · subst hne
      rfl
    obtain ⟨hle, hleft, hkind⟩ := pieceAt_gap before hgap hne hrest
    have hpos := pieceAt_pos before (gap ++ rest)
    rw [scan_of_ne_nil before p (List.append_ne_nil_of_left_ne_nil hne rest)]
    generalize pieceAt before (gap ++ rest) = piece at hle hleft hkind hpos ⊢
    obtain ⟨kind?, n⟩ := piece
    change n ≤ _ at hle
    change 0 < n at hpos
    dsimp only at hleft hkind ⊢
    have htake : (gap ++ rest).take n = gap.take n := List.take_append_of_le_length hle
    have hdrop : (gap ++ rest).drop n = gap.drop n ++ rest := List.drop_append_of_le_length hle
    have hlast : (gap.drop n).getLast?.or (gap.take n).getLast? = gap.getLast? := by
      rw [← List.getLast?_append, List.take_append_drop]
    -- what is left of the gap is shorter, and the scan goes on there
    have hfurther : tokensOf (scan (gap.take n).getLast? (p.after (gap.take n)) (gap.drop n ++ rest)) =
        tokensOf (scan (gap.getLast?.or before) (p.after gap) rest) := by
      have hlt : (gap.drop n).length < gap.length := by
        have := List.length_pos_iff.2 hne
        rw [List.length_drop]
        omega
      rw [ih _ hlt hleft (gap.take n).getLast? (p.after (gap.take n)) rfl, ← Position.after_append,
        List.take_append_drop, hlast]
      cases hgap : gap.getLast? with
      | none => exact absurd (List.getLast?_eq_none_iff.1 hgap) hne
      | some c => rfl
    rw [htake, hdrop]
    cases kind? with
    | none => exact hfurther
    | some kind =>
      rw [hkind kind rfl]
      exact hfurther

end CStruct.Rendering
