import CStruct.Proofs.Comments.Blanking

/-!
# Scanning a text without its comments

Writing blanks over the comments of a source leaves the lexemes that are no comments where they are.
The scanner sees another text from the first comment on, so what it measures has to be the same in
both texts: no keyword has two spaces in a row or a slash in it, no run of digits or letters goes
into a blank or a comment, and no comment can begin or end where there was none.
-/

namespace CStruct

namespace Scanner

/-! ### A text up to its first comment -/

/-- Two texts that are the same up to the first comment, in whose place there are spaces. -/
def SameUpToComment (cs cs' : List Char) : Prop :=
  cs' = cs ∨ ∃ v r r', cs = v ++ '/' :: r ∧ cs' = v ++ ' ' :: ' ' :: r'

theorem SameUpToComment.append {cs cs' : List Char} (h : SameUpToComment cs cs') (u : List Char) :
    SameUpToComment (u ++ cs) (u ++ cs') := by
  rcases h with rfl | ⟨v, r, r', rfl, rfl⟩
  · exact .inl rfl
  · exact .inr ⟨u ++ v, r, r', (List.append_assoc ..).symm, (List.append_assoc ..).symm⟩

/-- Nothing is blanked before the first comment. The induction is on the length of the text, since
pieces may be of any length. -/
theorem sameUpToComment_blanked (before : Option Char) (text : List Char) :
    SameUpToComment text (blanked before text) := by
  induction hlen : text.length using Nat.strongRecOn generalizing before text with
  | ind n ih =>
    by_cases htext : text = []
    · rw [htext, blanked_nil]
      exact .inl rfl
    · rw [blanked_of_ne_nil before htext]
      dsimp only
      rcases pieceAt_comment before text with ⟨hkind, hcomment⟩ | ⟨hkind, -⟩
      · obtain ⟨d, cs, k, hcons, hd, hn⟩ := marker_of_comment hcomment
        rw [if_pos hkind, hn, hcons]
        generalize blanked _ _ = further
        refine .inr ⟨[], d :: cs, (cs.take k).map blankFor ++ further, rfl, ?_⟩
        rw [List.take_succ_cons, List.take_succ_cons, List.map_cons, List.map_cons,
          show blankFor d = ' ' from if_neg hd]
        rfl
      · have hrest := ih _ (hlen ▸ length_drop_pieceAt before htext)
          (text.take (pieceAt before text).2).getLast? (text.drop (pieceAt before text).2) rfl
        rw [if_neg hkind]
        nth_rewrite 1 [← List.take_append_drop (pieceAt before text).2 text]
        exact hrest.append _

theorem runLength_append_cons {p : Char → Bool} {c d : Char} (hc : p c = false) (hd : p d = false)
    (v r r' : List Char) : runLength p (v ++ c :: r) = runLength p (v ++ d :: r') := by
  induction v with
  | nil =>
    rw [List.nil_append, List.nil_append, runLength, runLength,
      List.takeWhile_cons_of_neg (by rw [hc]; exact Bool.false_ne_true),
      List.takeWhile_cons_of_neg (by rw [hd]; exact Bool.false_ne_true)]
  | cons e v ih =>
    rw [List.cons_append, List.cons_append, runLength, runLength, List.takeWhile_cons,
      List.takeWhile_cons]
    split
    · exact congrArg Nat.succ ih
    · rfl

/-- A run that goes into no comment and no space. -/
theorem SameUpToComment.runLength_eq {cs cs' : List Char} (h : SameUpToComment cs cs')
    {p : Char → Bool} (hslash : p '/' = false) (hspace : p ' ' = false) :
    runLength p cs' = runLength p cs := by
  rcases h with rfl | ⟨v, r, r', rfl, rfl⟩
  · rfl
  · exact runLength_append_cons hspace hslash v _ _

/-- What begins with a text and then goes on, goes on in what follows. -/
theorem prefix_of_prefix_append {w v x : List Char} (h : w <+: v ++ x)
    (hx : ∀ t, t ≠ [] → t <+: x → w ≠ v ++ t) : w <+: v := by
  rcases List.prefix_or_prefix_of_prefix h (List.prefix_append v x) with hw | ⟨t, rfl⟩
  · exact hw
  · by_cases ht : t = []
    · rw [ht, List.append_nil]
    · exact absurd rfl (hx t ht ((List.prefix_append_right_inj v).1 h))

/-- A word without a slash ends before the first one. -/
theorem prefix_of_prefix_slash {w v r : List Char} (hslash : '/' ∉ w) (h : w <+: v ++ '/' :: r) :
    w <+: v := by
  apply prefix_of_prefix_append h
  intro t ht hx heq
  obtain ⟨d, t, rfl⟩ := List.exists_cons_of_ne_nil ht
  obtain ⟨rfl, -⟩ := List.cons_prefix_cons.1 hx
  exact hslash (heq ▸ List.mem_append_right v List.mem_cons_self)

/-- A word that does not end in a space, and that has no two of them in a row, ends before the first
two. -/
theorem prefix_of_prefix_spaces {w v r : List Char} (hlast : w.getLast? ≠ some ' ')
    (hspaces : ¬[' ', ' '] <:+: w) (h : w <+: v ++ ' ' :: ' ' :: r) : w <+: v := by
  apply prefix_of_prefix_append h
  intro t ht hx heq
  obtain ⟨d, t, rfl⟩ := List.exists_cons_of_ne_nil ht
  obtain ⟨rfl, hnext⟩ := List.cons_prefix_cons.1 hx
  cases t with
  | nil => exact hlast (by rw [heq, List.getLast?_concat])
  | cons d t =>
    obtain ⟨rfl, -⟩ := List.cons_prefix_cons.1 hnext
    exact hspaces ⟨v, t, by rw [heq, List.append_assoc]; rfl⟩

theorem standsAlone_append (word : String) (u : List Char) :
    standsAlone (word.toList ++ u) word = !u.head?.any Text.isWordChar := by
  have hstart : word.toList.isPrefixOf (word.toList ++ u) = true :=
    List.isPrefixOf_iff_prefix.2 (List.prefix_append _ _)
  have hfollow : (word.toList ++ u).drop word.length = u := by
    rw [← String.length_toList, List.drop_left]
  rw [standsAlone, startsWith, hstart, hfollow]
  rfl

theorem standsAlone_eq_false {text : List Char} {word : String} (h : ¬word.toList <+: text) :
    standsAlone text word = false := by
  have hstart : word.toList.isPrefixOf text = false :=
    Bool.eq_false_iff.2 fun hstart => h (List.isPrefixOf_iff_prefix.1 hstart)
  rw [standsAlone, startsWith, hstart]
  rfl

/-- A keyword stands in both texts or in neither: it has no slash in it, nor two spaces in a row,
and it does not end in a space. -/
theorem SameUpToComment.standsAlone_eq {cs cs' : List Char} (h : SameUpToComment cs cs')
    {word : String} (hword : word ∈ Lexicon.typeKeywords) :
    standsAlone cs' word = standsAlone cs word := by
  rcases h with rfl | ⟨v, r, r', rfl, rfl⟩
  · rfl
  have hall : ∀ word ∈ Lexicon.typeKeywords, '/' ∉ word.toList ∧ word.toList.getLast? ≠ some ' ' ∧
      ¬[' ', ' '] <:+: word.toList := by decide +kernel
  obtain ⟨hslash, hlast, hspaces⟩ := hall word hword
  by_cases hv : word.toList <+: v
  · obtain ⟨u, rfl⟩ := hv
    rw [List.append_assoc, List.append_assoc, standsAlone_append, standsAlone_append]
    cases u with
    | nil =>
      show (!Text.isWordChar ' ') = (!Text.isWordChar '/')
      decide
    | cons d u => rfl
  · rw [standsAlone_eq_false fun hleft => hv (prefix_of_prefix_slash hslash hleft),
      standsAlone_eq_false fun hright => hv (prefix_of_prefix_spaces hlast hspaces hright)]

/-! ### The same pieces -/

/-- A comment begins nowhere where none has begun before. -/
theorem no_comment_of_fades {c : Char} {cs cs' : List Char} (h : List.Forall₂ Fades cs cs')
    (hblock : blockComment? (c :: cs) = none) (hline : lineComments? (c :: cs) = none) :
    blockComment? (c :: cs') = none ∧ lineComments? (c :: cs') = none := by
  constructor
  · unfold blockComment?
    split
    · rename_i hstart
      obtain ⟨ds', hds'⟩ := startsWith_cons_cons (a := '/') (b := '*') rfl hstart
      cases hds'
      cases h with
      | @cons d _ ds _ hd hds =>
        obtain rfl := hd.eq (by decide)
        rw [blockComment?, if_pos (by rfl)] at hblock
        exact Option.map_eq_none_iff.2 (blockEnd?_of_fades hds (Option.map_eq_none_iff.1 hblock))
    · rfl
  · unfold lineComments?
    split
    · rename_i hstart
      obtain ⟨ds', hds'⟩ := startsWith_cons_cons (a := '/') (b := '/') rfl hstart
      cases hds'
      cases h with
      | @cons d _ ds _ hd hds =>
        obtain rfl := hd.eq (by decide)
        rw [lineComments?, if_pos (by rfl)] at hline
        cases hline
    · rfl

theorem SameUpToComment.run?_eq {cs cs' : List Char} (h : SameUpToComment cs cs') {p : Char → Bool}
    (hslash : p '/' = false) (hspace : p ' ' = false) : run? p cs' = run? p cs := by
  rw [run?, run?, h.runLength_eq hslash hspace]

/-- What is neither a comment nor a blank is measured the same. -/
theorem pieceAt_eq {before before' : Option Char} {c : Char} {cs cs' : List Char}
    (hbefore : before'.any Text.isWordChar = before.any Text.isWordChar)
    (hsame : SameUpToComment cs cs') (hfades : List.Forall₂ Fades cs cs')
    (hblock : blockComment? (c :: cs) = none) (hline : lineComments? (c :: cs) = none)
    (hblank : Text.isBlank c = false) : pieceAt before' (c :: cs') = pieceAt before (c :: cs) := by
  obtain ⟨hblock', hline'⟩ := no_comment_of_fades hfades hblock hline
  have hnumber : run? Char.isDigit (c :: cs') = run? Char.isDigit (c :: cs) :=
    (hsame.append [c]).run?_eq (by decide) (by decide)
  have hkeyword : keyword? before' (c :: cs') = keyword? before (c :: cs) := by
    have hstands : Lexicon.typeKeywords.filter (standsAlone (c :: cs')) =
        Lexicon.typeKeywords.filter (standsAlone (c :: cs)) :=
      List.filter_congr fun word hword => (hsame.append [c]).standsAlone_eq hword
    rw [keyword?, keyword?, hbefore, hstands]
  have hname : name? (c :: cs') = name? (c :: cs) := by
    rw [name?, name?, hsame.runLength_eq (by decide) (by decide)]
  have hblanks (ds : List Char) : run? Text.isBlank (c :: ds) = none := Rendering.no_run hblank
  rw [pieceAt, pieceAt, measures, measures, hblock, hline, hblock', hline', hnumber, hkeyword,
    hname, hblanks, hblanks]
  rfl

/-! ### The same lexemes -/

/-- Blanks can be passed one by one. -/
theorem scan_blank (before : Option Char) (p : Position) {c : Char} (hc : Text.isBlank c = true)
    (cs : List Char) : scan before p (c :: cs) = scan (some c) (p.next c) cs := by
  rw [scan_of_ne_nil before p (List.cons_ne_nil c cs), Rendering.pieceAt_blank hc,
    Rendering.runLength_cons hc]
  dsimp only
  rw [List.take_succ_cons, List.drop_succ_cons, Position.after_cons, List.getLast?_cons]
  cases cs with
  | nil => rfl
  | cons d cs =>
    by_cases hd : Text.isBlank d = true
    · rw [scan_of_ne_nil (some c) _ (List.cons_ne_nil d cs), Rendering.pieceAt_blank hd,
        Rendering.runLength_cons hd]
      dsimp only
      rw [List.take_succ_cons, List.drop_succ_cons, List.getLast?_cons]
      rfl
    · have hzero : runLength Text.isBlank (d :: cs) = 0 :=
        Rendering.runLength_of_head (by rintro _ ⟨⟩; exact Bool.eq_false_iff.2 hd)
      rw [hzero]
      rfl

theorem scan_blanks (before : Option Char) (p : Position) {u : List Char} (hne : u ≠ [])
    (hu : ∀ c ∈ u, Text.isBlank c = true) (cs : List Char) :
    scan before p (u ++ cs) = scan u.getLast? (p.after u) cs := by
  induction u generalizing before p with
  | nil => exact absurd rfl hne
  | cons c u ih =>
    rw [List.cons_append, scan_blank before p (hu c List.mem_cons_self)]
    by_cases hu' : u = []
    · rw [hu']
      rfl
    · rw [ih _ _ hu' fun d hd => hu d (List.mem_cons_of_mem c hd), Position.after_cons,
        List.getLast?_cons]
      obtain ⟨d, hd⟩ := Option.ne_none_iff_exists'.1 fun h => hu' (List.getLast?_eq_none_iff.1 h)
      rw [hd]
      rfl

/-- Blanks do not end in a part of a word. -/
theorem any_getLast?_of_blanks {u : List Char} (hne : u ≠ [])
    (hu : ∀ c ∈ u, Text.isBlank c = true) : u.getLast?.any Text.isWordChar = false := by
  obtain ⟨c, hc⟩ := Option.ne_none_iff_exists'.1 fun h => hne (List.getLast?_eq_none_iff.1 h)
  rw [hc]
  exact Rendering.isWordChar_of_isBlank (hu c (List.mem_of_getLast? hc))

theorem isBlank_blankFor (c : Char) : Text.isBlank (blankFor c) = true := by
  unfold blankFor
  split
  · rename_i hc
    rw [hc]
    decide
  · decide

/-- The characters before a text are alike as far as words go, or it begins with a line feed. -/
def Alike (before before' : Option Char) (text : List Char) : Prop :=
  before'.any Text.isWordChar = before.any Text.isWordChar ∨ ∀ c ∈ text.head?, c = '\n'

/-- A piece that is neither a comment nor blank is found again where comments are written over. -/
theorem pieceAt_blanked {before before' : Option Char} {c : Char} {cs : List Char}
    (hbefore : before'.any Text.isWordChar = before.any Text.isWordChar)
    (hblank : Text.isBlank c = false) (hkind : (pieceAt before (c :: cs)).1 ≠ some .comment) :
    pieceAt before' (blanked before (c :: cs)) = pieceAt before (c :: cs) := by
  obtain ⟨hblock, hline⟩ : blockComment? (c :: cs) = none ∧ lineComments? (c :: cs) = none := by
    rcases pieceAt_comment before (c :: cs) with ⟨hcomment, -⟩ | ⟨-, hnone⟩
    · exact absurd hcomment hkind
    · exact hnone
  obtain ⟨k, hk⟩ := Nat.exists_eq_succ_of_ne_zero (Nat.ne_of_gt (pieceAt_pos before (c :: cs)))
  rw [blanked_of_ne_nil before (List.cons_ne_nil c cs)]
  dsimp only
  rw [if_neg hkind, hk, List.take_succ_cons, List.drop_succ_cons, List.cons_append]
  have hsame := (sameUpToComment_blanked (c :: cs.take k).getLast? (cs.drop k)).append (cs.take k)
  have hfades : List.Forall₂ Fades (cs.take k ++ cs.drop k) (cs.take k ++ _) :=
    List.rel_append (forall₂_fades_refl (cs.take k))
      (fades_blanked (c :: cs.take k).getLast? (cs.drop k))
  rw [List.take_append_drop] at hsame hfades
  exact pieceAt_eq hbefore hsame hfades hblock hline hblank

/-- Where comments are written over in a text, the other lexemes are found where they were. -/
def Steady (text : List Char) : Prop :=
  ∀ before before' p, Alike before before' text →
    scan before' p (blanked before text) = (scan before p text).filter fun l => !l.isComment

/-- Behind a comment it makes no difference to words whether it has been written over. -/
theorem alike_of_comment {text : List Char} {n : Nat}
    (h : blockComment? text = some n ∨ lineComments? text = some n)
    (hlast : Option.any Text.isWordChar ((text.take n).map blankFor).getLast? = false) :
    Alike (text.take n).getLast? ((text.take n).map blankFor).getLast? (text.drop n) := by
  rcases behind_comment h with hslash | hline
  · refine .inl ?_
    rw [hlast, hslash]
    decide
  · exact .inr hline

/-- A comment: blanks stand in its place, and lines end where they ended. -/
theorem steady_of_comment {before : Option Char} {text : List Char} (htext : text ≠ [])
    (hkind : (pieceAt before text).1 = some .comment)
    (hcomment : blockComment? text = some (pieceAt before text).2 ∨
      lineComments? text = some (pieceAt before text).2)
    (hrest : Steady (text.drop (pieceAt before text).2)) (before' : Option Char) (p : Position) :
    scan before' p (blanked before text) = (scan before p text).filter fun l => !l.isComment := by
  have hpos := pieceAt_pos before text
  have hle := pieceAt_le before htext
  rw [blanked_of_ne_nil before htext, scan_of_ne_nil before p htext]
  dsimp only
  rw [if_pos hkind, hkind]
  generalize (pieceAt before text).2 = k at *
  have hne : (text.take k).map blankFor ≠ [] := by
    intro hnil
    have hlength := congrArg List.length hnil
    rw [List.length_map, List.length_take, List.length_nil] at hlength
    omega
  have hblanks : ∀ c ∈ (text.take k).map blankFor, Text.isBlank c = true := by
    intro c hc
    obtain ⟨d, -, rfl⟩ := List.mem_map.1 hc
    exact isBlank_blankFor d
  have hlast := any_getLast?_of_blanks hne hblanks
  -- the blanks are passed like any others, and end where the comment ended
  rw [scan_blanks before' p hne hblanks, after_of_fades (forall₂_fades_map _) p,
    hrest _ _ _ (alike_of_comment hcomment hlast)]
  rfl

/-- Blanks: more of them may follow than before, so they are passed one by one. -/
theorem steady_of_blank {before : Option Char} {c : Char} {cs : List Char}
    (hblank : Text.isBlank c = true)
    (hrest : Steady ((c :: cs).drop (pieceAt before (c :: cs)).2)) (before' : Option Char)
    (p : Position) : scan before' p (blanked before (c :: cs)) =
      (scan before p (c :: cs)).filter fun l => !l.isComment := by
  rw [blanked_of_ne_nil before (List.cons_ne_nil c cs),
    scan_of_ne_nil before p (List.cons_ne_nil c cs)]
  rw [Rendering.pieceAt_blank hblank] at hrest ⊢
  have htake := take_runLength Text.isBlank (c :: cs)
  dsimp only at hrest ⊢
  rw [if_neg (by decide), htake, scan_blanks before' p, hrest _ _ _ (.inl rfl)]
  · rw [List.takeWhile_cons_of_pos hblank]
    exact List.cons_ne_nil _ _
  · exact List.all_eq_true.1 List.all_takeWhile

/-- Another piece: it is measured the same in both texts. -/
theorem steady_of_piece {before before' : Option Char} {c : Char} {cs : List Char}
    (hbefore : before'.any Text.isWordChar = before.any Text.isWordChar)
    (hblank : Text.isBlank c = false) (hkind : (pieceAt before (c :: cs)).1 ≠ some .comment)
    (hrest : Steady ((c :: cs).drop (pieceAt before (c :: cs)).2)) (p : Position) :
    scan before' p (blanked before (c :: cs)) =
      (scan before p (c :: cs)).filter fun l => !l.isComment := by
  have htext := List.cons_ne_nil c cs
  have hne : blanked before (c :: cs) ≠ [] := by
    have hlength := (fades_blanked before (c :: cs)).length_eq
    exact fun hnil => htext (List.eq_nil_of_length_eq_zero (by rw [hlength, hnil]; rfl))
  have hlength : ((c :: cs).take (pieceAt before (c :: cs)).2).length =
      (pieceAt before (c :: cs)).2 := List.length_take_of_le (pieceAt_le before htext)
  have hblanked := blanked_of_ne_nil before htext
  dsimp only at hblanked
  rw [if_neg hkind] at hblanked
  -- both texts have the same piece in front, and what follows it is steady
  rw [scan_of_ne_nil before' p hne, pieceAt_blanked hbefore hblank hkind,
    scan_of_ne_nil before p htext]
  dsimp only
  rw [hblanked, List.take_left' hlength, List.drop_left' hlength, hrest _ _ _ (.inl rfl)]
  cases hk : (pieceAt before (c :: cs)).1 with
  | none => rfl
  | some kind =>
    have hother : (kind == .comment) = false := by
      rw [beq_eq_false_iff_ne]
      exact fun heq => hkind (hk.trans (congrArg some heq))
    dsimp only
    rw [List.filter_cons_of_pos]
    rw [Lexeme.isComment, hother]
    rfl

/-- Where comments are written over, the other lexemes are found where they were. -/
theorem scan_blanked (text : List Char) : Steady text := by
  induction hlen : text.length using Nat.strongRecOn generalizing text with
  | ind n ih =>
    intro before before' p hbefore
    by_cases htext : text = []
    · rw [htext, blanked_nil, scan, scan]
      rfl
    have hrest := ih _ (hlen ▸ length_drop_pieceAt before htext) _ rfl
    rcases pieceAt_comment before text with ⟨hkind, hcomment⟩ | ⟨hkind, -⟩
    · exact steady_of_comment htext hkind hcomment hrest before' p
    · obtain ⟨c, cs, rfl⟩ := List.exists_cons_of_ne_nil htext
      by_cases hblank : Text.isBlank c = true
      · exact steady_of_blank hblank hrest before' p
      · have hword : before'.any Text.isWordChar = before.any Text.isWordChar := by
          rcases hbefore with hword | hline
          · exact hword
          · rw [hline c rfl] at hblank
            exact absurd (by decide) hblank
        exact steady_of_piece hword (Bool.eq_false_iff.2 hblank) hkind hrest p

end Scanner

namespace Lexicon

/-- Without its comments, a source has the lexemes that are no comments, in their places. -/
theorem fst_lexemes_withoutComments (source : String) :
    (lexemes (withoutComments source)).1 = tokens source := by
  rw [fst_lexemes, Scanner.lexemes, toList_withoutComments, tokens, fst_lexemes, Scanner.lexemes]
  exact Scanner.scan_blanked _ _ _ _ (.inl rfl)

end Lexicon

end CStruct
