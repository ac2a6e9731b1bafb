import CStruct.Proofs.Redundant.Tracking
import CStruct.Proofs.Rendering.Tokens
import CStruct.Proofs.Spacing.Lexemes

/-!
# A line of its own in a text

A text that is put in on a line of its own, between two lexemes of another text, leaves the lexemes
of that as they are: what ends before it is measured the same, and what begins behind it is found
again. The one exception are words: where the place has a part of a word on either side, a keyword
may come to stand alone.
-/

namespace CStruct

namespace Scanner

variable {before before' : Option Char} {put u v w : List Char}

/-! ## What is measured before the line -/

/-- A text that begins a line with something else than a comment, and that ends none. -/
structure OwnLine (put : List Char) : Prop where
  head : ∃ c cs, put = '\n' :: c :: cs ∧ Text.isBlank c = false ∧ c ≠ '/'
  star : '*' ∉ put

/-- What is no longer than the text before the line is the same without the line. -/
def Unaffected (measure : List Char → Option Nat) (put u v : List Char) : Prop :=
  (∀ n ∈ measure (u ++ v), n ≤ u.length) → measure (u ++ (put ++ v)) = measure (u ++ v)

theorem runLength_put (hput : OwnLine put) {p : Char → Bool} (hp : p '\n' = false)
    (h : runLength p (u ++ v) ≤ u.length) :
    runLength p (u ++ (put ++ v)) = runLength p (u ++ v) := by
  obtain ⟨c, cs, rfl, -⟩ := hput.head
  unfold runLength at h ⊢
  rw [List.cons_append, List.takeWhile_append, List.takeWhile_append]
  rw [List.takeWhile_append] at h
  split
  · rename_i hall
    rw [if_pos hall, List.length_append] at h
    rw [List.takeWhile_cons_of_neg (by rw [hp]; exact Bool.false_ne_true), List.length_append,
      List.length_append, List.length_nil]
    omega
  · rfl

theorem unaffected_run? (hput : OwnLine put) {p : Char → Bool} (hp : p '\n' = false) :
    Unaffected (run? p) put u v := by
  intro h
  have hle : runLength p (u ++ v) ≤ u.length := by
    by_cases hzero : runLength p (u ++ v) = 0
    · rw [hzero]
      exact Nat.zero_le _
    · exact h _ (if_neg hzero)
  rw [run?, run?, runLength_put hput hp hle]

theorem unaffected_name? (hput : OwnLine put) (hu : u ≠ []) : Unaffected name? put u v := by
  obtain ⟨c, u, rfl⟩ := List.exists_cons_of_ne_nil hu
  intro h
  rw [List.cons_append, name?_cons] at h
  rw [List.cons_append, List.cons_append, name?_cons, name?_cons]
  split
  · rename_i hstart
    rw [if_pos hstart] at h
    exact congrArg some (runLength_put (u := c :: u) hput (by decide) (h _ rfl))
  · rfl

/-- The marker of a comment does not go on in the next line. -/
theorem not_startsWith_put (hput : OwnLine put) {a b : Char} {marker : String}
    (hmarker : marker.toList = [a, b]) (hb : b ≠ '\n') (d : Char) (v : List Char) :
    startsWith marker (d :: (put ++ v)) = false := by
  obtain ⟨c, cs, rfl, -⟩ := hput.head
  rw [startsWith, hmarker]
  show (a == d && (b == '\n' && _)) = false
  rw [beq_eq_false_iff_ne.2 hb, Bool.false_and, Bool.and_false]

theorem blockEnd?_of_notMem (hput : '*' ∉ put) (v : List Char) :
    blockEnd? (put ++ v) = (blockEnd? v).map (· + put.length) := by
  induction put with
  | nil => exact Option.map_id'.symm
  | cons c put ih =>
    obtain ⟨hc, hput⟩ := not_or.1 (mt List.mem_cons.2 hput)
    have hstart : startsWith "*/" (c :: (put ++ v)) = false := by
      show ('*' == c && _) = false
      rw [beq_eq_false_iff_ne.2 hc, Bool.false_and]
    rw [List.cons_append, blockEnd?, if_neg (by rw [hstart]; exact Bool.false_ne_true), ih hput,
      Option.map_map]
    rfl

theorem unaffected_blockEnd? (hput : OwnLine put) : Unaffected blockEnd? put u v := by
  induction u with
  | nil =>
    intro h
    have hnone : blockEnd? v = none := Option.eq_none_iff_forall_not_mem.2 fun n hn =>
      absurd (h n hn) (Nat.not_le_of_lt (Nat.lt_of_lt_of_le Nat.zero_lt_two (getLast?_blockEnd hn).1))
    rw [List.nil_append, List.nil_append, blockEnd?_of_notMem hput.star, hnone]
    rfl
  | cons c u ih =>
    intro h
    have hmarker : startsWith "*/" (c :: (u ++ (put ++ v))) = startsWith "*/" (c :: (u ++ v)) := by
      cases u with
      | cons d u => rfl
      | nil =>
        rw [List.nil_append, List.nil_append, not_startsWith_put hput rfl (by decide), eq_comm,
          Bool.eq_false_iff]
        intro hstart
        refine absurd (h 2 ?_) (Nat.not_succ_le_self 1)
        rw [List.cons_append, List.nil_append, blockEnd?, if_pos hstart]
        rfl
    rw [List.cons_append] at h
    rw [List.cons_append, List.cons_append, blockEnd?, blockEnd?, hmarker]
    split
    · rfl
    · rename_i hother
      rw [blockEnd?, if_neg hother] at h
      refine congrArg (Option.map (· + 1)) (ih fun n hn => ?_)
      exact Nat.le_of_succ_le_succ (h (n + 1) (by rw [Option.mem_def.1 hn]; rfl))

/-- The two kinds of comments, each with its marker and the function that measures what follows. -/
theorem unaffected_comment (hput : OwnLine put) {a b : Char} {marker : String}
    (hmarker : marker.toList = [a, b]) (hb : b ≠ '\n') {rest : List Char → Option Nat}
    (hrest : ∀ u, Unaffected rest put u v) (hu : u ≠ []) :
    Unaffected (fun text =>
      if startsWith marker text then (rest (text.drop 2)).map (· + 2) else none) put u v := by
  intro h
  dsimp only at h ⊢
  rcases u with _ | ⟨d, _ | ⟨e, u⟩⟩
  · exact absurd rfl hu
  · -- the place is inside the marker, or there is none
    rw [List.cons_append, List.nil_append, List.cons_append, List.nil_append,
      not_startsWith_put hput hmarker hb, if_neg Bool.false_ne_true, eq_comm,
      Option.eq_none_iff_forall_not_mem]
    intro n hn
    have hle : n ≤ 1 := h n hn
    split at hn
    · obtain ⟨k, -, rfl⟩ := Option.map_eq_some_iff.1 hn
      exact absurd hle (Nat.not_le_of_lt (Nat.lt_add_left k (Nat.lt_succ_self 1)))
    · cases hn
  · have hsame : startsWith marker (d :: e :: u ++ (put ++ v)) =
        startsWith marker (d :: e :: u ++ v) := by
      rw [startsWith, startsWith, hmarker]
      rfl
    rw [hsame]
    split
    · rename_i hstart
      rw [if_pos hstart] at h
      refine congrArg (Option.map (· + 2)) (hrest u fun n hn => ?_)
      exact Nat.le_of_add_le_add_right (h (n + 2) (Option.map_eq_some_iff.2 ⟨n, hn, rfl⟩))
    · rfl

theorem unaffected_blockComment? (hput : OwnLine put) (hu : u ≠ []) :
    Unaffected blockComment? put u v :=
  unaffected_comment hput (a := '/') (b := '*') rfl (by decide)
    (fun _ => unaffected_blockEnd? hput) hu

/-! ### Line comments -/

theorem commentBelow?_of_dropWhile {cs below : List Char} {c : Char}
    (h : cs.dropWhile inLine = c :: below) :
    commentBelow? cs = if startsWith "//" (below.dropWhile Text.isBlank) then
      some ((below.dropWhile Text.isBlank).drop 2) else none := by
  rw [commentBelow?, h]

namespace OwnLine

/-- The first line of what is put in is empty. -/
theorem startsWith_dropWhile (h : OwnLine put) (v : List Char) :
    startsWith "//" ((put ++ v).dropWhile Text.isBlank) = false := by
  obtain ⟨c, cs, hcs, hblank, hslash⟩ := h.head
  rw [hcs, List.cons_append, List.dropWhile_cons_of_pos (by decide), List.cons_append,
    List.dropWhile_cons_of_neg (by rw [hblank]; exact Bool.false_ne_true)]
  show ('/' == c && _) = false
  rw [beq_eq_false_iff_ne.2 hslash.symm, Bool.false_and]

/-- The second line of what is put in does not go on with a comment. -/
theorem commentBelow?_eq_none (h : OwnLine put) (v : List Char) :
    commentBelow? (put ++ v) = none := by
  have hstarts := h.startsWith_dropWhile v
  obtain ⟨c, cs, hcs, -, -⟩ := h.head
  rw [hcs, List.cons_append, List.dropWhile_cons_of_pos (by decide)] at hstarts
  rw [hcs, List.cons_append, commentBelow?_of_dropWhile (List.dropWhile_cons_of_neg (by decide)),
    hstarts, if_neg Bool.false_ne_true]

end OwnLine

/-- What stands before the end of the line makes no difference to the lines below. -/
theorem commentBelow?_append (hu : u.dropWhile inLine = []) (x : List Char) :
    commentBelow? (u ++ x) = commentBelow? x := by
  rw [commentBelow?, List.dropWhile_append, hu, List.isEmpty_nil, if_pos rfl, commentBelow?]

/-- Where the next line goes on with a comment, it does so in both texts, unless that line comes
from what is put in or stands behind it. -/
theorem commentBelow?_put (hput : OwnLine put) (u v : List Char) :
    (commentBelow? (u ++ v) = none ∧ commentBelow? (u ++ (put ++ v)) = none) ∨
      (∃ u', u'.length < u.length ∧ commentBelow? (u ++ v) = some (u' ++ v) ∧
        commentBelow? (u ++ (put ++ v)) = some (u' ++ (put ++ v))) ∨
      ∃ further ∈ commentBelow? (u ++ v), further.length < v.length := by
  cases hu : u.dropWhile inLine with
  | nil =>
    -- the line goes on to the place
    rw [commentBelow?_append hu, commentBelow?_append hu, hput.commentBelow?_eq_none]
    cases hfurther : commentBelow? v with
    | none => exact .inl ⟨rfl, rfl⟩
    | some further => exact .inr (.inr ⟨further, rfl, length_of_mem_commentBelow? hfurther⟩)
  | cons d below =>
    have hdrop (x : List Char) : (u ++ x).dropWhile inLine = d :: (below ++ x) := by
      rw [List.dropWhile_append, hu]
      rfl
    have hlt : below.length < u.length := by
      have hle := (List.dropWhile_suffix (l := u) inLine).length_le
      rw [hu] at hle
      exact hle
    rw [commentBelow?_of_dropWhile (hdrop v), commentBelow?_of_dropWhile (hdrop (put ++ v)),
      List.dropWhile_append, List.dropWhile_append]
    have hle := (List.dropWhile_suffix (l := below) Text.isBlank).length_le
    rcases hbelow : below.dropWhile Text.isBlank with _ | ⟨e, _ | ⟨f, u'⟩⟩
    · -- nothing but blanks stands between the line and the place
      rw [List.isEmpty_nil, if_pos rfl, if_pos rfl, hput.startsWith_dropWhile,
        if_neg Bool.false_ne_true]
      split
      · rename_i hcomment
        refine .inr (.inr ⟨_, rfl, ?_⟩)
        have hmarker := length_le_of_startsWith hcomment
        have hle := (List.dropWhile_suffix (l := v) Text.isBlank).length_le
        rw [List.length_drop]
        exact Nat.lt_of_lt_of_le (Nat.sub_lt (Nat.lt_of_lt_of_le Nat.zero_lt_two hmarker)
          Nat.zero_lt_two) hle
      · exact .inl ⟨rfl, rfl⟩
    · -- the place is inside a marker, or there is none
      rw [List.isEmpty_cons, if_neg Bool.false_ne_true, if_neg Bool.false_ne_true,
        List.cons_append, List.nil_append, List.cons_append, List.nil_append,
        not_startsWith_put hput rfl (by decide), if_neg Bool.false_ne_true]
      split
      · rename_i hcomment
        obtain ⟨v', hv'⟩ := startsWith_cons_cons (a := '/') (b := '/') rfl hcomment
        cases hv'
        exact .inr (.inr ⟨_, rfl, Nat.lt_succ_self _⟩)
      · exact .inl ⟨rfl, rfl⟩
    · have hsame : startsWith "//" (e :: f :: u' ++ (put ++ v)) =
          startsWith "//" (e :: f :: u' ++ v) := rfl
      rw [List.isEmpty_cons, if_neg Bool.false_ne_true, if_neg Bool.false_ne_true, hsame]
      split
      · refine .inr (.inl ⟨u', ?_, rfl, rfl⟩)
        rw [hbelow, List.length_cons, List.length_cons] at hle
        omega
      · exact .inl ⟨rfl, rfl⟩

theorem unaffected_lineEnd (hput : OwnLine put) (u : List Char) :
    Unaffected (fun text => some (lineEnd text)) put u v := by
  -- comment by comment, as long as they go on
  induction hlen : u.length using Nat.strongRecOn generalizing u with
  | ind n ih =>
    intro h
    have hle : lineEnd (u ++ v) ≤ u.length := h _ rfl
    refine congrArg some ?_
    rcases commentBelow?_put hput u v with
      ⟨hold, hnew⟩ | ⟨u', hlt, hold, hnew⟩ | ⟨further, hold, hlt⟩
    · rw [lineEnd_of_none hold] at hle ⊢
      rw [lineEnd_of_none hnew, runLength_put hput (by decide) hle]
    · rw [lineEnd_of_some hold, List.length_append, List.length_append] at hle ⊢
      have hsame := Option.some.inj (ih _ (hlen ▸ hlt) u' rfl fun n hn => by
        cases hn
        omega)
      rw [lineEnd_of_some hnew, hsame]
      simp only [List.length_append, Nat.add_sub_add_right]
    · rw [lineEnd_of_some hold, List.length_append] at hle
      omega

theorem unaffected_lineComments? (hput : OwnLine put) (hu : u ≠ []) :
    Unaffected lineComments? put u v :=
  unaffected_comment hput (a := '/') (b := '/') rfl (by decide) (unaffected_lineEnd hput) hu

/-! ### Keywords -/

/-- No keyword goes on in the next line. -/
theorem prefix_of_prefix_put (hput : OwnLine put) {word : List Char} (hword : '\n' ∉ word)
    (h : word <+: u ++ (put ++ v)) : word <+: u := by
  obtain ⟨c, cs, rfl, -⟩ := hput.head
  refine prefix_of_prefix_append h fun t ht hx heq => ?_
  obtain ⟨d, t, rfl⟩ := List.exists_cons_of_ne_nil ht
  obtain ⟨rfl, -⟩ := List.cons_prefix_cons.1 hx
  exact hword (heq ▸ List.mem_append_right u List.mem_cons_self)

/-- The characters next to the place are not both parts of words. -/
def Parted (before : Option Char) (u v : List Char) : Prop :=
  ¬((u.getLast?.or before).any Text.isWordChar = true ∧ v.head?.any Text.isWordChar = true)

theorem Parted.rest (h : Parted before (u ++ w) v) (hu : u ≠ []) : Parted u.getLast? w v := by
  unfold Parted at h ⊢
  rw [List.getLast?_append] at h
  cases hlast : u.getLast? with
  | none => exact absurd (List.getLast?_eq_none_iff.1 hlast) hu
  | some c =>
    rw [hlast] at h
    cases hw : w.getLast? <;> rw [hw] at h <;> exact h

/-- A keyword that begins a text does not come to stand behind a part of a word. -/
theorem Parted.keyword? (h : Parted before [] v) : keyword? (some '\n') v = keyword? before v := by
  have hnewline : (some '\n').any Text.isWordChar = false := by decide
  cases hbefore : before.any Text.isWordChar with
  | false => rw [Scanner.keyword?, Scanner.keyword?, hbefore, hnewline]
  | true =>
    cases v with
    | nil => rw [Scanner.keyword?, Scanner.keyword?, hbefore]; rfl
    | cons c v =>
      have hc : Text.isWordChar c = false := Bool.eq_false_iff.2 fun hc => h ⟨hbefore, hc⟩
      rw [Rendering.no_keyword hc, Rendering.no_keyword hc]

/-- A keyword that ends before the place stands alone in both texts or in neither. -/
theorem standsAlone_put (hput : OwnLine put) {word : String} (hword : word ∈ Lexicon.typeKeywords)
    (hparted : Parted before u v) (h : word.toList <+: u) :
    standsAlone (u ++ (put ++ v)) word = standsAlone (u ++ v) word := by
  obtain ⟨c, cs, rfl, -⟩ := hput.head
  obtain ⟨u', rfl⟩ := h
  rw [List.append_assoc, List.append_assoc, standsAlone_append, standsAlone_append]
  cases u' with
  | cons d u' => rfl
  | nil =>
    -- the keyword ends in a part of a word, so that none follows in the other text
    have hlast := (Lexicon.isWordChar_of_mem_typeKeywords hword).2
    rw [List.append_nil] at hparted
    have hfollow : v.head?.any Text.isWordChar = false := by
      rw [Bool.eq_false_iff]
      refine fun hv => hparted ⟨?_, hv⟩
      cases hchars : word.toList.getLast? with
      | none =>
        rw [hchars] at hlast
        cases hlast
      | some d =>
        rw [hchars] at hlast
        exact hlast
    rw [List.nil_append, List.nil_append, hfollow]
    rfl

theorem unaffected_keyword? (hput : OwnLine put) (hparted : Parted before u v) :
    (∀ word ∈ keyword? before (u ++ v), word.length ≤ u.length) →
      keyword? before (u ++ (put ++ v)) = keyword? before (u ++ v) := by
  intro h
  refine keyword?_eq rfl (fun word hword => ?_) fun word hword => ?_
  · obtain ⟨hmem, hstands⟩ := mem_typeKeywords_of_mem_keyword? hword
    have hbegins := List.prefix_of_prefix_length_le (startsWith_of_standsAlone hstands)
      (List.prefix_append u v) (by rw [String.length_toList]; exact h word hword)
    rw [standsAlone_put hput hmem hparted hbegins]
    exact hstands
  · obtain ⟨hmem, hstands⟩ := mem_typeKeywords_of_mem_keyword? hword
    have hall : ∀ word ∈ Lexicon.typeKeywords, '\n' ∉ word.toList := by decide
    have hbegins := prefix_of_prefix_put hput (hall word hmem) (startsWith_of_standsAlone hstands)
    rw [← standsAlone_put hput hmem hparted hbegins]
    exact hstands

/-! ## Pieces -/

/-- The first of some measures, if those not longer than `b` are the same as in another list. -/
theorem findSome?_measures {b : Nat} {ms ms' : List (Option LexemeKind × Option Nat)}
    (h : List.Forall₂ (fun m m' => m'.1 = m.1 ∧ ((∀ n ∈ m.2, n ≤ b) → m'.2 = m.2)) ms ms')
    (hle : ∀ piece ∈ ms.findSome? fun (kind?, n?) => n?.map (kind?, ·), piece.2 ≤ b) :
    (ms'.findSome? fun (kind?, n?) => n?.map (kind?, ·)) =
      ms.findSome? fun (kind?, n?) => n?.map (kind?, ·) := by
  induction h with
  | nil => rfl
  | @cons m m' ms ms' hm _ ih =>
    obtain ⟨kind?, n?⟩ := m
    obtain ⟨kind?', n?'⟩ := m'
    obtain ⟨rfl, hsame⟩ := hm
    rw [List.findSome?_cons] at hle ⊢
    rw [List.findSome?_cons]
    dsimp only at hle hsame ⊢
    cases n? with
    | none =>
      rw [hsame nofun]
      exact ih hle
    | some n =>
      have heq : n?' = some n := hsame fun k hk => by
        cases hk
        exact hle _ rfl
      rw [heq]
      rfl

/-- A piece that ends before the place is the same in both texts, unless it is blank. -/
theorem pieceAt_put (hput : OwnLine put) {c : Char} (hc : Text.isBlank c = false)
    (hparted : Parted before (c :: u) v) (hle : (pieceAt before (c :: u ++ v)).2 ≤ u.length + 1) :
    pieceAt before (c :: u ++ (put ++ v)) = pieceAt before (c :: u ++ v) := by
  have hu : c :: u ≠ [] := List.cons_ne_nil c u
  have hblank (x : List Char) : run? Text.isBlank (c :: u ++ x) = none := Rendering.no_run hc
  have hkeyword : (∀ n ∈ (keyword? before (c :: u ++ v)).map String.length, n ≤ u.length + 1) →
      (keyword? before (c :: u ++ (put ++ v))).map String.length =
        (keyword? before (c :: u ++ v)).map String.length := fun h =>
    congrArg _ (unaffected_keyword? hput hparted fun word hword =>
      h _ (Option.map_eq_some_iff.2 ⟨word, hword, rfl⟩))
  have hmeasures : List.Forall₂
      (fun m m' => m'.1 = m.1 ∧ ((∀ n ∈ m.2, n ≤ u.length + 1) → m'.2 = m.2))
      (measures before (c :: u ++ v)) (measures before (c :: u ++ (put ++ v))) := by
    refine .cons ⟨rfl, unaffected_blockComment? hput hu⟩
      (.cons ⟨rfl, unaffected_lineComments? hput hu⟩
      (.cons ⟨rfl, unaffected_run? hput (by decide)⟩ (.cons ⟨rfl, hkeyword⟩
        (.cons ⟨rfl, unaffected_name? hput hu⟩ (.cons ⟨rfl, fun _ => rfl⟩
          (.cons ⟨rfl, fun _ => ?_⟩ .nil))))))
    rw [hblank, hblank]
  rw [pieceAt, pieceAt, findSome?_measures hmeasures]
  intro piece hpiece
  rw [pieceAt, Option.mem_def.1 hpiece] at hle
  exact hle

/-! ## The lexemes of both texts -/

/-- Lexemes do not depend on where a text begins, nor on the character before it, unless a keyword
does. -/
theorem scan_unplaced {text : List Char} (h : keyword? before' text = keyword? before text)
    (p p' : Position) :
    (scan before' p' text).map Lexeme.unplaced = (scan before p text).map Lexeme.unplaced := by
  induction hlen : text.length using Nat.strongRecOn generalizing text before before' p p' with
  | ind n ih =>
    by_cases htext : text = []
    · rw [htext, scan, scan]
    · have hpiece : pieceAt before' text = pieceAt before text := by
        rw [pieceAt, pieceAt, measures, measures, h]
      have hkeyword : keyword? (text.take (pieceAt before text).2).getLast?
          (text.drop (pieceAt before text).2) =
        keyword? (text.take (pieceAt before text).2).getLast?
          (text.drop (pieceAt before text).2) := rfl
      have hfurther (q q' : Position) :=
        ih _ (hlen ▸ length_drop_pieceAt before htext) hkeyword q q' rfl
      rw [scan_of_ne_nil before p htext, scan_of_ne_nil before' p' htext, hpiece]
      dsimp only
      split
      · rw [List.map_cons, List.map_cons, hfurther]
        rfl
      · exact hfurther _ _

/-- A piece that makes a lexeme ends before the place if no lexeme goes on across it. -/
theorem pieceAt_le_of_outside {c : Char} (hc : Text.isBlank c = false) {p : Position}
    (houtside : ∀ l ∈ scan before p (c :: u ++ v),
      l.span.stop ≤ p.after (c :: u) ∨ p.after (c :: u) ≤ l.span.start) :
    (pieceAt before (c :: u ++ v)).2 ≤ u.length + 1 := by
  cases hkind : (pieceAt before (c :: u ++ v)).1 with
  | none =>
    rcases pieceAt_cases before (c :: u ++ v) with heq | ⟨m, hm, n, hn, heq⟩
    · rw [heq]
      exact Nat.le_add_left 1 u.length
    · -- only blanks make no lexeme, and this is none
      rw [heq] at hkind
      simp only [measures, List.mem_cons, List.not_mem_nil, or_false] at hm
      rcases hm with rfl | rfl | rfl | rfl | rfl | rfl | rfl
      all_goals try cases hkind
      rw [List.cons_append, Rendering.no_run hc] at hn
      cases hn
  | some kind =>
    by_contra hlong
    have hlong := Nat.lt_of_not_le hlong
    have htext : c :: u ++ v ≠ [] := List.cons_ne_nil c (u ++ v)
    have hle := pieceAt_le before htext
    rw [scan_of_ne_nil before p htext, hkind] at houtside
    dsimp only at houtside
    generalize (pieceAt before (c :: u ++ v)).2 = n at *
    have hmore : v.take (n - (u.length + 1)) ≠ [] := by
      rw [← List.length_pos_iff, List.length_take]
      rw [List.length_append, List.length_cons] at hle
      omega
    have hclaimed : (c :: u ++ v).take n = c :: u ++ v.take (n - (u.length + 1)) := by
      rw [List.take_append, List.length_cons, List.take_of_length_le (Nat.le_of_lt hlong)]
    rcases houtside _ List.mem_cons_self with hstop | hstart
    · dsimp only at hstop
      rw [hclaimed, Position.after_append] at hstop
      exact Position.lt_irrefl _ (Position.lt_of_lt_of_le (Position.lt_after _ hmore) hstop)
    · exact Position.lt_irrefl _
        (Position.lt_of_lt_of_le (Position.lt_after p (List.cons_ne_nil c u)) hstart)

/-- A lexeme is found where it stands before a text that it does not run on into. -/
theorem scan_lexeme {l : Lexeme} {text : List Char} (hl : l.IsSpelled) (hkind : l.kind ≠ .comment)
    (hnamed : l.kind = .name → l.text ∉ Lexicon.typeKeywords)
    (hbefore : l.kind = .type → before.any Text.isWordChar = false)
    (htext : Rendering.EndsBefore l text) (p : Position) :
    (scan before p (l.text.toList ++ text)).map Lexeme.unplaced =
      l.unplaced :: (scan l.text.toList.getLast? (p.after l.text.toList) text).map
        Lexeme.unplaced := by
  have hpiece := Rendering.pieceAt_lexeme hl hkind hnamed hbefore htext
  rw [← String.length_toList] at hpiece
  rw [(scan_piece p hpiece).2, String.ofList_toList]
  rfl

/-- No lexeme is empty. -/
theorem start_lt_stop_of_mem_scan {p : Position} {text : List Char} {l : Lexeme}
    (h : l ∈ scan before p text) : l.span.start < l.span.stop := by
  fun_induction scan before p text with
  | case1 => cases h
  | case2 before p c cs piece claimed stop further kind hkind ih =>
    rcases List.mem_cons.1 h with rfl | h
    · refine Position.lt_after p fun hclaimed => ?_
      rcases List.take_eq_nil_iff.1 hclaimed with hzero | htext
      · exact Nat.ne_of_gt (pieceAt_pos before (c :: cs)) hzero
      · cases htext
    · exact ih h
  | case3 before p c cs piece claimed stop further hkind ih => exact ih h

end Scanner

namespace Parse

open Scanner

/-- A forward declaration of `n` on a line of its own. -/
def forwardText (n : String) : String := "\nstruct " ++ n ++ ";\n"

theorem toList_forwardText (n : String) : (forwardText n).toList =
    '\n' :: ("struct".toList ++ (' ' :: (n.toList ++ (";".toList ++ ['\n'])))) := by
  rw [forwardText, String.toList_append, String.toList_append,
    show "\nstruct ".toList = '\n' :: ("struct".toList ++ [' ']) by decide,
    show ";\n".toList = ";".toList ++ ['\n'] by decide]
  simp only [List.cons_append, List.append_assoc, List.nil_append]

variable {n : String} {before : Option Char} {u v : List Char}
  (hn : Lexeme.IsSpelled ⟨.name, n, {}⟩)
include hn

theorem ownLine_forwardText : OwnLine (forwardText n).toList where
  head := ⟨'s', _, toList_forwardText n, by decide, by decide⟩
  star := by
    obtain ⟨c, cs, rfl, hstart, hrest⟩ := hn
    rw [toList_forwardText, String.toList_ofList]
    have hc : c ≠ '*' := by
      rintro rfl
      cases hstart
    have hcs : '*' ∉ cs := fun hmem => by
      have hstar := List.all_eq_true.1 hrest '*' hmem
      cases hstar
    simp [hc.symm, hcs]

variable (hnamed : n ∉ Lexicon.typeKeywords)
include hnamed

/-- The lexemes of a forward declaration, and what stands on the lines below it. -/
theorem scan_forwardText (p : Position) :
    (scan before p ((forwardText n).toList ++ v)).map Lexeme.unplaced =
      forwardLexemes n ++ (scan (some '\n') {} v).map Lexeme.unplaced := by
  have hstruct : Lexeme.IsSpelled ⟨.name, "struct", {}⟩ :=
    ⟨'s', "truct".toList, by decide, by decide, by decide⟩
  have hoperator : Lexeme.IsSpelled ⟨.operator, ";", {}⟩ := ⟨';', by decide, rfl⟩
  have hends : ∀ cs, ";".toList ++ ['\n'] ++ v = ' ' :: cs → Rendering.startsWord cs = false := by
    rw [show ";".toList = [';'] by decide]
    nofun
  rw [toList_forwardText, List.cons_append, scan_blank _ _ (by decide), List.append_assoc,
    scan_lexeme hstruct (by decide) (fun _ => by decide) nofun ⟨rfl, .inl (.inl rfl)⟩,
    List.cons_append, scan_blank _ _ (by decide), List.append_assoc,
    scan_lexeme hn LexemeKind.noConfusion (fun _ => hnamed) nofun ⟨rfl, .inr hends⟩,
    List.append_assoc, scan_lexeme hoperator LexemeKind.noConfusion nofun nofun trivial,
    List.singleton_append, scan_blank _ _ (by decide), scan_unplaced rfl {} _]
  rfl

/-- A forward declaration that is put into a text between two lexemes leaves these as they are. -/
theorem scan_put (hparted : Parted before u v) {p : Position}
    (houtside : ∀ l ∈ scan before p (u ++ v), l.span.stop ≤ p.after u ∨ p.after u ≤ l.span.start)
    (p' : Position) :
    ∃ ls ls', scan before p (u ++ v) = ls ++ ls' ∧ (∀ l ∈ ls, l.span.stop ≤ p.after u) ∧
      (∀ l ∈ ls', p.after u ≤ l.span.start) ∧
      (scan before p' (u ++ ((forwardText n).toList ++ v))).map Lexeme.unplaced =
        ls.map Lexeme.unplaced ++ (forwardLexemes n ++ ls'.map Lexeme.unplaced) := by
  -- on what is left of the text before the place, piece by piece, and blanks one by one
  induction hlen : u.length using Nat.strongRecOn generalizing u before p p' with
  | ind m ih =>
    subst hlen
    cases u with
    | nil =>
      refine ⟨[], scan before p v, rfl, nofun, fun l hl => le_start_of_mem_scan hl, ?_⟩
      rw [List.nil_append, scan_forwardText hn hnamed, scan_unplaced hparted.keyword? p {}]
      rfl
    | cons c u =>
      by_cases hc : Text.isBlank c = true
      · rw [List.cons_append, scan_blank before p hc] at houtside ⊢
        rw [List.cons_append, scan_blank before p' hc]
        exact ih _ (Nat.lt_succ_self _) (hparted.rest (u := [c]) (List.cons_ne_nil c [])) houtside
          _ rfl
      · have hblank := Bool.eq_false_iff.2 hc
        have hle := pieceAt_le_of_outside hblank houtside
        have hsame := pieceAt_put (ownLine_forwardText hn) hblank hparted hle
        have hpos := pieceAt_pos before (c :: u ++ v)
        generalize hpiece : pieceAt before (c :: u ++ v) = piece at *
        obtain ⟨kind?, k⟩ := piece
        obtain ⟨w, u', hu, hlength⟩ : ∃ w u', c :: u = w ++ u' ∧ w.length = k :=
          ⟨(c :: u).take k, (c :: u).drop k, (List.take_append_drop k _).symm,
            List.length_take_of_le hle⟩
        have hlt : u'.length < (c :: u).length := by
          rw [hu, List.length_append, hlength]
          exact Nat.lt_add_of_pos_left hpos
        rw [hu] at hpiece hsame hparted houtside ih hlt ⊢
        subst hlength
        rw [List.append_assoc] at hpiece hsame houtside ⊢
        rw [List.append_assoc]
        obtain ⟨hw, hscan⟩ := scan_piece p hpiece
        have hscan' := (scan_piece p' hsame).2
        rw [Position.after_append] at houtside ⊢
        rw [hscan] at houtside ⊢
        obtain ⟨ls, ls', hls, hbefore, hbehind, hput⟩ := ih _ hlt (hparted.rest hw)
          (fun l hl => houtside l (List.mem_append_right _ hl)) (p'.after w) rfl
        refine ⟨_ ++ ls, ls', by rw [hls, List.append_assoc], fun l hl => ?_, hbehind, ?_⟩
        · rcases List.mem_append.1 hl with hl | hl
          · obtain ⟨kind, -, rfl⟩ := Option.map_eq_some_iff.1 (Option.mem_toList.1 hl)
            exact Position.le_after _ u'
          · exact hbefore l hl
        · rw [hscan', List.map_append, hput, List.map_append, List.append_assoc]
          cases kind? <;> rfl

/-- Between the lexemes of a source that are no comments, those of the forward declaration are
found. -/
theorem tokens_put {pre post : String} (hparted : Parted none pre.toList post.toList)
    (houtside : ∀ l ∈ (Lexicon.lexemes (pre ++ post)).1,
      l.span.stop ≤ Position.after {} pre.toList ∨ Position.after {} pre.toList ≤ l.span.start) :
    ∃ ls ls', Lexicon.tokens (pre ++ post) = ls ++ ls' ∧
      (∀ l ∈ ls, l.span.stop ≤ Position.after {} pre.toList) ∧
      (∀ l ∈ ls', Position.after {} pre.toList ≤ l.span.start) ∧
      (Lexicon.tokens (pre ++ forwardText n ++ post)).map Lexeme.unplaced =
        ls.map Lexeme.unplaced ++ (forwardLexemes n ++ ls'.map Lexeme.unplaced) := by
  rw [Lexicon.fst_lexemes, lexemes, String.toList_append] at houtside
  obtain ⟨ls, ls', hls, hbefore, hbehind, hput⟩ := scan_put hn hnamed hparted houtside {}
  have hfilter (ls : List Lexeme) : (ls.filter fun l => !l.isComment).map Lexeme.unplaced =
      (ls.map Lexeme.unplaced).filter fun l => !l.isComment := by
    rw [List.filter_map]
    rfl
  refine ⟨ls.filter fun l => !l.isComment, ls'.filter fun l => !l.isComment, ?_,
    fun l hl => hbefore l (List.mem_filter.1 hl).1,
    fun l hl => hbehind l (List.mem_filter.1 hl).1, ?_⟩
  · rw [Lexicon.tokens, Lexicon.fst_lexemes, lexemes, String.toList_append, hls, List.filter_append]
  · rw [Lexicon.tokens, Lexicon.fst_lexemes, lexemes, String.toList_append, String.toList_append,
      List.append_assoc, hfilter, hput, List.filter_append, List.filter_append, hfilter, hfilter]
    rfl

end Parse

end CStruct
