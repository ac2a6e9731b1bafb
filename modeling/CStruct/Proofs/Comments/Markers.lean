import CStruct.Proofs.Comments.Scanning
import CStruct.Proofs.Comments.Trimming

/-!
# Markers in descriptions

Taking the markers out of a comment leaves the pieces of text between them, and the description is
made of those. A slash that is left stands right before a character that is left too, so no two
pieces meet in a marker that begins with a slash. Two pieces can meet in an end marker: of `**//`,
the second star and the first slash are taken out, and `*/` is left. This cannot happen in a block
comment, which ends at its first end marker.
-/

namespace CStruct

namespace Comment

open Text

/-! ## The pieces of a text -/

/-- The comment markers. -/
def markers : List (List Char) := [['/', '*'], ['*', '/'], ['/', '/']]

/-- The texts between the markers that are taken out of a text, with the one before the first and
the one behind the last. -/
def pieces : List Char → List (List Char)
  | '/' :: '*' :: cs => [] :: pieces cs
  | '*' :: '/' :: cs => [] :: pieces cs
  | '/' :: '/' :: cs => [] :: pieces cs
  | c :: cs => (pieces cs).modifyHead (c :: ·)
  | [] => [[]]

theorem pieces_ne_nil (cs : List Char) : pieces cs ≠ [] := by
  fun_induction pieces cs with
  | case1 | case2 | case3 | case5 => exact List.cons_ne_nil _ _
  | case4 c cs _ _ _ ih =>
    obtain ⟨p, ps, hp⟩ := List.exists_cons_of_ne_nil ih
    rw [hp]
    exact List.cons_ne_nil _ _

/-- What is left of a text is its pieces. -/
theorem flatten_pieces (cs : List Char) : (pieces cs).flatten = stripMarkers cs := by
  fun_induction stripMarkers cs with
  | case1 cs ih | case2 cs ih | case3 cs ih => rw [pieces, List.flatten_cons, List.nil_append, ih]
  | case4 c cs h₁ h₂ h₃ ih =>
    obtain ⟨p, ps, hp⟩ := List.exists_cons_of_ne_nil (pieces_ne_nil cs)
    rw [pieces.eq_4 _ _ h₁ h₂ h₃, ← ih, hp]
    rfl
  | case5 => rfl

/-- No marker begins with a character that is left. -/
theorem not_prefix_of_kept {c : Char} {cs m : List Char}
    (h₁ : ∀ ds, c = '/' → cs = '*' :: ds → False) (h₂ : ∀ ds, c = '*' → cs = '/' :: ds → False)
    (h₃ : ∀ ds, c = '/' → cs = '/' :: ds → False) (hm : m ∈ markers) : ¬m <+: c :: cs := by
  rintro ⟨rest, hrest⟩
  simp only [markers, List.mem_cons, List.not_mem_nil, or_false] at hm
  rcases hm with rfl | rfl | rfl
  all_goals obtain ⟨rfl, rfl⟩ := List.cons.inj hrest
  · exact h₁ _ rfl rfl
  · exact h₂ _ rfl rfl
  · exact h₃ _ rfl rfl

theorem prefix_of_head_pieces {cs p : List Char} (h : p ∈ (pieces cs).head?) : p <+: cs := by
  fun_induction pieces cs generalizing p with
  | case1 | case2 | case3 | case5 => exact Option.mem_some.1 h ▸ List.nil_prefix
  | case4 c cs _ _ _ ih =>
    obtain ⟨q, qs, hq⟩ := List.exists_cons_of_ne_nil (pieces_ne_nil cs)
    rw [hq] at h ih
    exact Option.mem_some.1 h ▸ List.cons_prefix_cons.2 ⟨rfl, ih rfl⟩

/-- There is no marker in a piece. -/
theorem no_marker_of_mem_pieces {cs p m : List Char} (hp : p ∈ pieces cs) (hm : m ∈ markers) :
    ¬m <:+: p := by
  have hne : ∀ m ∈ markers, m ≠ [] := by decide
  fun_induction pieces cs generalizing p with
  | case1 cs ih | case2 cs ih | case3 cs ih =>
    rcases List.mem_cons.1 hp with rfl | hp
    · exact fun h => hne m hm (List.infix_nil.1 h)
    · exact ih hp
  | case4 c cs h₁ h₂ h₃ ih =>
    obtain ⟨q, qs, hq⟩ := List.exists_cons_of_ne_nil (pieces_ne_nil cs)
    have hprefix : q <+: cs := prefix_of_head_pieces (hq ▸ rfl)
    rw [hq] at hp ih
    rcases List.mem_cons.1 hp with rfl | hp
    · rw [List.infix_cons_iff]
      rintro (hstart | h)
      · exact not_prefix_of_kept h₁ h₂ h₃ hm
          (hstart.trans (List.cons_prefix_cons.2 ⟨rfl, hprefix⟩))
      · exact ih List.mem_cons_self h
    · exact ih (List.mem_cons_of_mem q hp)
  | case5 => exact fun h => hne m hm (List.infix_nil.1 (List.mem_singleton.1 hp ▸ h))

/-! ## Texts without markers -/

/-- A character that begins no marker is left. -/
theorem stripMarkers_cons {c : Char} (hslash : c ≠ '/') (hstar : c ≠ '*') (cs : List Char) :
    stripMarkers (c :: cs) = c :: stripMarkers cs :=
  stripMarkers.eq_4 c cs (fun _ h _ => hslash h) (fun _ h _ => hstar h) (fun _ h _ => hslash h)

/-- A text without what is taken out of its rest is shorter. -/
theorem stripMarkers_ne_cons_cons (a b : Char) (cs : List Char) :
    stripMarkers cs ≠ a :: b :: cs := by
  intro heq
  have hle := (stripMarkers_sublist cs).length_le
  rw [heq, List.length_cons, List.length_cons] at hle
  omega

/-- Nothing is taken out of a text if and only if there is no marker in it. -/
theorem stripMarkers_eq_self_iff {cs : List Char} :
    stripMarkers cs = cs ↔ ∀ m ∈ markers, ¬m <:+: cs := by
  fun_induction stripMarkers cs with
  | case1 cs | case2 cs | case3 cs =>
    refine iff_of_false (stripMarkers_ne_cons_cons _ _ cs) fun h => ?_
    exact h [_, _] (by decide) (List.prefix_append [_, _] cs).isInfix
  | case4 c cs h₁ h₂ h₃ ih =>
    rw [List.cons.injEq, eq_self, true_and, ih]
    refine forall₂_congr fun m hm => ?_
    rw [List.infix_cons_iff, not_or, and_iff_right (not_prefix_of_kept h₁ h₂ h₃ hm)]
  | case5 => exact iff_of_true rfl (by decide)

/-- No marker is left that begins with a slash, and none is made. -/
theorem no_slash_pair {d : Char} (hd : d = '*' ∨ d = '/') (cs : List Char) :
    ¬['/', d] <:+: stripMarkers cs := by
  fun_induction stripMarkers cs with
  | case1 cs ih | case2 cs ih | case3 cs ih => exact ih
  | case4 c cs h₁ h₂ h₃ ih =>
    rw [List.infix_cons_iff]
    rintro (hstart | h)
    · obtain ⟨rfl, hnext⟩ := List.cons_prefix_cons.1 hstart
      -- the slash has been left, so that no marker begins behind it
      cases cs with
      | nil => exact List.cons_ne_nil d [] (List.prefix_nil.1 hnext)
      | cons e cs =>
        have hstar : e ≠ '*' := fun he => h₁ cs rfl (he ▸ rfl)
        have hslash : e ≠ '/' := fun he => h₃ cs rfl (he ▸ rfl)
        rw [stripMarkers_cons hslash hstar] at hnext
        obtain ⟨rfl, -⟩ := List.cons_prefix_cons.1 hnext
        rcases hd with rfl | rfl
        · exact hstar rfl
        · exact hslash rfl
    · exact ih h
  | case5 => exact not_pair_infix_nil

/-- An end marker is left where two pieces meet in one. -/
theorem end_infix_iff (cs : List Char) :
    ['*', '/'] <:+: stripMarkers cs ↔ Meets '*' '/' (pieces cs) := by
  rw [← flatten_pieces, pair_infix_flatten_iff, or_iff_right]
  rintro ⟨p, hp, h⟩
  exact no_marker_of_mem_pieces hp (by decide) h

/-- What is left begins with a slash only behind an end marker or if the text does. -/
theorem prefix_of_slash_prefix {cs : List Char} (h : ['/'] <+: stripMarkers cs) :
    ['/'] <+: cs ∨ ['*', '/'] <+: cs := by
  fun_cases stripMarkers cs with
  | case1 cs | case3 cs => exact .inl (List.prefix_append ['/'] _)
  | case2 cs => exact .inr (List.prefix_append ['*', '/'] cs)
  | case4 c cs h₁ h₂ h₃ =>
    rw [stripMarkers.eq_4 c cs h₁ h₂ h₃] at h
    exact .inl ((List.cons_prefix_cons.1 h).1 ▸ List.prefix_append ['/'] cs)
  | case5 => exact .inl h

/-- If the text holds an end marker at its end only, then none is left. -/
theorem no_end_pair {cs : List Char} (h : ∀ u v, cs = u ++ '*' :: '/' :: v → v = []) :
    ¬['*', '/'] <:+: stripMarkers cs := by
  fun_induction stripMarkers cs with
  | case1 cs ih => exact ih fun u v huv => h ('/' :: '*' :: u) v (by rw [huv]; rfl)
  | case2 cs ih =>
    rw [h [] cs rfl]
    exact not_pair_infix_nil
  | case3 cs ih => exact ih fun u v huv => h ('/' :: '/' :: u) v (by rw [huv]; rfl)
  | case4 c cs h₁ h₂ h₃ ih =>
    have hrest := ih fun u v huv => h (c :: u) v (by rw [huv]; rfl)
    rw [List.infix_cons_iff]
    rintro (hstart | hinfix)
    · obtain ⟨rfl, hnext⟩ := List.cons_prefix_cons.1 hstart
      rcases prefix_of_slash_prefix hnext with ⟨ds, rfl⟩ | ⟨ds, rfl⟩
      · exact h₂ ds rfl rfl
      · -- an end marker stands behind the star, and the text ends with it
        rw [h ['*'] ds rfl] at hnext
        exact absurd hnext (by decide)
    · exact hrest hinfix
  | case5 => exact not_pair_infix_nil

/-! ## Descriptions -/

theorem infix_of_isBlock {text : List Char} (h : isBlock text = true) : ['/', '*'] <:+: text :=
  (List.isPrefixOf_iff_prefix.1 h).isInfix

/-- A description holds no pair of characters that is not left of the comment, blanks aside. -/
theorem pair_infix_stripMarkers {a b : Char} (ha : isBlank a = false) (hb : isBlank b = false)
    {text : List Char} (h : [a, b] <:+: descriptionChars text) : [a, b] <:+: stripMarkers text := by
  have hne {c : Char} (hc : isBlank c = false) : c ≠ '\n' :=
    fun heq => absurd (heq ▸ hc) (by decide)
  unfold descriptionChars at h
  split at h
  · rw [pair_infix_trim_iff ha hb] at h
    obtain ⟨l, hl, hpair⟩ := pair_infix_intercalate (hne ha) (hne hb) h
    obtain ⟨m, hm, rfl⟩ := List.mem_map.1 hl
    exact (hpair.trans (List.dropWhile_suffix isDecoration).isInfix).trans (infix_of_mem_lines hm)
  · exact (pair_infix_trim_iff ha hb _).1 h

theorem trim_descriptionChars (text : List Char) :
    trim (descriptionChars text) = descriptionChars text := by
  unfold descriptionChars
  split
  · exact trim_trim _
  · exact trim_trim _

/-- No description starts a comment. -/
theorem no_slash_pair_descriptionChars {d : Char} (hd : d = '*' ∨ d = '/') (text : List Char) :
    ¬['/', d] <:+: descriptionChars text := by
  have hblank : isBlank d = false := by
    rcases hd with rfl | rfl
    · decide
    · decide
  exact fun h => no_slash_pair hd text (pair_infix_stripMarkers (by decide) hblank h)

/-- The description of a description is the same text, unless an end marker is left in it. -/
theorem descriptionChars_descriptionChars_iff (text : List Char) :
    descriptionChars (descriptionChars text) = descriptionChars text ↔
      ¬['*', '/'] <:+: descriptionChars text := by
  have hstart := no_slash_pair_descriptionChars (.inl rfl) text
  have hline := no_slash_pair_descriptionChars (.inr rfl) text
  have hblock : ¬isBlock (descriptionChars text) = true := fun h => hstart (infix_of_isBlock h)
  have htrim := trim_descriptionChars text
  generalize descriptionChars text = d at *
  have hself : stripMarkers d = d ↔ ¬['*', '/'] <:+: d := by
    rw [stripMarkers_eq_self_iff]
    simp [markers, hstart, hline]
  rw [descriptionChars, if_neg hblock, ← hself]
  constructor
  · intro h
    have hle := length_trim_le (stripMarkers d)
    rw [h] at hle
    exact (stripMarkers_sublist d).eq_of_length_le hle
  · intro h
    rw [h, htrim]

end Comment

/-! ## The comments of a source -/

namespace Scanner

open Comment

theorem take_comment {text : List Char} {n : Nat}
    (h : blockComment? text = some n ∨ lineComments? text = some n) :
    (∃ cs k, blockEnd? cs = some k ∧ text.take n = '/' :: '*' :: cs.take k) ∨
      ∃ cs, text.take n = '/' :: '/' :: cs := by
  rcases h with h | h
  · unfold blockComment? at h
    split at h
    · rename_i hstart
      obtain ⟨cs, rfl⟩ := startsWith_cons_cons (a := '/') (b := '*') rfl hstart
      obtain ⟨k, hk, rfl⟩ := Option.map_eq_some_iff.1 h
      exact .inl ⟨cs, k, hk, rfl⟩
    · cases h
  · unfold lineComments? at h
    split at h
    · rename_i hstart
      obtain ⟨cs, rfl⟩ := startsWith_cons_cons (a := '/') (b := '/') rfl hstart
      cases h
      exact .inr ⟨_, rfl⟩
    · cases h

/-- A comment goes from its start marker to the first end marker, or it is made of line comments. -/
theorem comment_of_mem_scan {before : Option Char} {p : Position} {text : List Char} {l : Lexeme}
    (h : l ∈ scan before p text) (hcomment : l.isComment = true) :
    (∃ cs n, blockEnd? cs = some n ∧ l.text.toList = '/' :: '*' :: cs.take n) ∨
      ∃ cs, l.text.toList = '/' :: '/' :: cs := by
  fun_induction scan before p text with
  | case1 => cases h
  | case2 before p c cs piece claimed stop further kind hkind ih =>
    rcases List.mem_cons.1 h with rfl | h
    · have hkind : (pieceAt before (c :: cs)).1 = some .comment :=
        hkind.trans (congrArg some (beq_iff_eq.1 hcomment))
      rw [String.toList_ofList]
      rcases pieceAt_comment before (c :: cs) with ⟨-, hpiece⟩ | ⟨hother, -⟩
      · exact take_comment hpiece
      · exact absurd hkind hother
    · exact ih h
  | case3 before p c cs piece claimed stop further hkind ih => exact ih h

/-- The only end marker of a block comment is at its end. -/
theorem nil_of_take_blockEnd? {cs u v : List Char} {n : Nat} (h : blockEnd? cs = some n)
    (huv : cs.take n = u ++ '*' :: '/' :: v) : v = [] := by
  induction cs generalizing n u with
  | nil => cases h
  | cons c cs ih =>
    rw [blockEnd?] at h
    split at h
    · rename_i hmarker
      cases h
      have hlength := congrArg List.length huv
      rw [List.length_append, List.length_cons, List.length_cons] at hlength
      have hle := List.length_take_le 2 (c :: cs)
      exact List.eq_nil_of_length_eq_zero (by omega)
    · rename_i hmarker
      obtain ⟨k, hk, rfl⟩ := Option.map_eq_some_iff.1 h
      rw [List.take_succ_cons] at huv
      cases u with
      | nil =>
        obtain ⟨rfl, hnext⟩ := List.cons.inj huv
        have hrest := List.take_prefix k cs
        rw [hnext] at hrest
        have hslash : ['/'] <+: cs := (List.prefix_append ['/'] v).trans hrest
        exact absurd (List.isPrefixOf_iff_prefix.2 (List.cons_prefix_cons.2 ⟨rfl, hslash⟩)) hmarker
      | cons d u => exact ih hk (List.cons.inj huv).2

/-- A text without an end marker makes one comment. -/
theorem scan_blockComment {body : List Char} (h : ¬['*', '/'] <:+: body) (before : Option Char)
    (p : Position) : scan before p ('/' :: '*' :: (body ++ ['*', '/'])) =
      [⟨.comment, String.ofList ('/' :: '*' :: (body ++ ['*', '/'])),
        ⟨p, p.after ('/' :: '*' :: (body ++ ['*', '/']))⟩⟩] := by
  have hblock : blockComment? ('/' :: '*' :: (body ++ ['*', '/'])) = some (body.length + 4) := by
    rw [blockComment?, if_pos (by rfl)]
    exact congrArg (Option.map (· + 2)) (Rendering.blockEnd?_append h)
  have hpiece : pieceAt before ('/' :: '*' :: (body ++ ['*', '/'])) =
      (some .comment, body.length + 4) := by
    rw [pieceAt, measures, hblock]
    rfl
  have hlength : ('/' :: '*' :: (body ++ ['*', '/'])).length ≤ body.length + 4 := by
    rw [List.length_cons, List.length_cons, List.length_append]
    rfl
  rw [scan_of_ne_nil before p (List.cons_ne_nil _ _), hpiece]
  dsimp only
  rw [List.take_of_length_le hlength, List.drop_of_length_le hlength, scan]

end Scanner

namespace Comment

open Text

/-- No end marker is left of a block comment: its only one is the one it ends with. -/
theorem no_end_pair_of_block {source : String} {c : Lexeme} (hc : c ∈ (Lexicon.lexemes source).1)
    (hcomment : c.isComment = true) (hblock : isBlock c.text.toList = true) :
    ¬['*', '/'] <:+: stripMarkers c.text.toList := by
  rw [Lexicon.fst_lexemes] at hc
  rcases Scanner.comment_of_mem_scan hc hcomment with ⟨cs, n, hend, htext⟩ | ⟨cs, htext⟩
  · rw [htext, stripMarkers]
    exact no_end_pair fun u v huv => Scanner.nil_of_take_blockEnd? hend huv
  · rw [htext] at hblock
    cases hblock

/-- The description of a comment holds no start marker and no line marker, and that of a block
comment no end marker. An end marker stands in a description if and only if two pieces of the
comment meet in one. Any other description describes itself, and can be written into a comment. -/
theorem description_markers {source : String} {c : Lexeme} (hc : c ∈ (Lexicon.lexemes source).1)
    (hcomment : c.isComment = true) :
    ¬['/', '*'] <:+: (description c.text).toList ∧ ¬['/', '/'] <:+: (description c.text).toList ∧
    (isBlock c.text.toList = true → ¬['*', '/'] <:+: (description c.text).toList) ∧
    (['*', '/'] <:+: (description c.text).toList ↔ Meets '*' '/' (pieces c.text.toList)) ∧
    (description (description c.text) = description c.text ↔
      ¬['*', '/'] <:+: (description c.text).toList) ∧
    (¬['*', '/'] <:+: (description c.text).toList →
      ∃ span, (Lexicon.lexemes ("/*" ++ description c.text ++ "*/")).1 =
        [⟨.comment, "/*" ++ description c.text ++ "*/", span⟩]) := by
  have hend : isBlock c.text.toList = true → ¬['*', '/'] <:+: stripMarkers c.text.toList :=
    no_end_pair_of_block hc hcomment
  have hleft : ['*', '/'] <:+: descriptionChars c.text.toList →
      ['*', '/'] <:+: stripMarkers c.text.toList :=
    pair_infix_stripMarkers (by decide) (by decide)
  refine ⟨?_, ?_, ?_, ?_, ?_, ?_⟩
  · rw [toList_description]
    exact no_slash_pair_descriptionChars (.inl rfl) _
  · rw [toList_description]
    exact no_slash_pair_descriptionChars (.inr rfl) _
  · rw [toList_description]
    exact fun hblock h => hend hblock (hleft h)
  · rw [toList_description, ← end_infix_iff]
    refine ⟨hleft, fun h => ?_⟩
    -- a block comment has no end marker left, so this is a line comment
    have hblock : ¬isBlock c.text.toList = true := fun hblock => hend hblock h
    rw [descriptionChars, if_neg hblock]
    exact (pair_infix_trim_iff (by decide) (by decide) _).2 h
  · rw [toList_description, ← descriptionChars_descriptionChars_iff, ← String.toList_inj,
      toList_description, toList_description]
  · intro h
    have htext : ("/*" ++ description c.text ++ "*/").toList =
        '/' :: '*' :: ((description c.text).toList ++ ['*', '/']) := by
      rw [String.toList_append, String.toList_append]
      rfl
    have hscan := Scanner.scan_blockComment h none {}
    rw [← htext, String.ofList_toList] at hscan
    exact ⟨_, (Lexicon.fst_lexemes _).trans hscan⟩

/-- A block comment may hold line markers. -/
theorem description_markers_of_lineMarker :
    ∃ c ∈ (Lexicon.lexemes "/* see //a//b */").1, c.isComment = true ∧
      description c.text = "see ab" ∧ ¬['*', '/'] <:+: (description c.text).toList ∧
      description (description c.text) = description c.text := by
  have hc : ⟨.comment, "/* see //a//b */", ⟨⟨0, 0⟩, ⟨0, 16⟩⟩⟩ ∈
      (Lexicon.lexemes "/* see //a//b */").1 := by decide +kernel
  obtain ⟨-, -, hblock, -, hself, -⟩ := description_markers hc rfl
  have hend := hblock (by decide +kernel)
  exact ⟨_, hc, rfl, by decide +kernel, hend, hself.2 hend⟩

/-- The pieces on both sides of two markers can meet in a third one, which is left. -/
theorem description_of_meetingPieces :
    ∃ c ∈ (Lexicon.lexemes "// **//a").1, c.isComment = true ∧
      ['*', '/'] <:+: (description c.text).toList ∧
      description (description c.text) ≠ description c.text := by
  decide +kernel

end Comment

end CStruct
