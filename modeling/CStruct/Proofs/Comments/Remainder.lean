import CStruct.Proofs.Comments.Decoration

/-!
# What is left of a comment

A text falls into pieces at its markers, each the leftmost in what remains behind the one before it.
Taking out the markers leaves the pieces, trimming takes away blanks at the ends, and the lines of a
block comment lose blanks and stars. All other characters are left, in their order.
-/

namespace CStruct.Comment

open Text

/-! ## Texts and their pieces -/

/-- The text falls into the pieces at its markers. No marker starts further left than the one that
ends the first piece, and the text behind it falls into the other pieces. -/
inductive Factored : List Char → List (List Char) → Prop
  | last {p : List Char} (hno : ∀ m ∈ markers, ¬m <:+: p) : Factored p [p]
  | marker {p m rest : List Char} {ps : List (List Char)} (hm : m ∈ markers)
      (hleft : ∀ u m' v, m' ∈ markers → p ++ (m ++ rest) = u ++ (m' ++ v) → p.length ≤ u.length)
      (hrest : Factored rest ps) : Factored (p ++ (m ++ rest)) (p :: ps)

theorem pieces_marker {m : List Char} (hm : m ∈ markers) (rest : List Char) :
    pieces (m ++ rest) = [] :: pieces rest := by
  simp only [markers, List.mem_cons, List.not_mem_nil, or_false] at hm
  rcases hm with rfl | rfl | rfl
  all_goals rfl

theorem pieces_kept {c : Char} {cs : List Char} (h : ∀ m ∈ markers, ¬m <+: c :: cs) :
    pieces (c :: cs) = (pieces cs).modifyHead (c :: ·) := by
  apply pieces.eq_4
  · rintro ds rfl rfl
    exact h ['/', '*'] (by decide) (List.prefix_append ['/', '*'] ds)
  · rintro ds rfl rfl
    exact h ['*', '/'] (by decide) (List.prefix_append ['*', '/'] ds)
  · rintro ds rfl rfl
    exact h ['/', '/'] (by decide) (List.prefix_append ['/', '/'] ds)

theorem pieces_of_no_marker {p : List Char} (hno : ∀ m ∈ markers, ¬m <:+: p) : pieces p = [p] := by
  induction p with
  | nil => rfl
  | cons c cs ih =>
    have hcs : pieces cs = [cs] := ih fun m hm h => hno m hm (h.trans (List.suffix_cons c cs).isInfix)
    rw [pieces_kept fun m hm h => hno m hm h.isInfix, hcs]
    rfl

theorem pieces_of_leftmost {p m rest : List Char} (hm : m ∈ markers)
    (hleft : ∀ u m' v, m' ∈ markers → p ++ (m ++ rest) = u ++ (m' ++ v) → p.length ≤ u.length) :
    pieces (p ++ (m ++ rest)) = p :: pieces rest := by
  induction p with
  | nil => exact pieces_marker hm rest
  | cons c p ih =>
    have hkept : ∀ m' ∈ markers, ¬m' <+: c :: (p ++ (m ++ rest)) := by
      rintro m' hm' ⟨v, hv⟩
      have hle := hleft [] m' v hm' hv.symm
      simp at hle
    have hp : pieces (p ++ (m ++ rest)) = p :: pieces rest := by
      apply ih
      intro u m' v hm' heq
      have hle := hleft (c :: u) m' v hm' (congrArg (c :: ·) heq)
      simp only [List.length_cons] at hle
      omega
    rw [List.cons_append, pieces_kept hkept, hp]
    rfl

theorem factored_cons {c : Char} {cs : List Char} {ps : List (List Char)}
    (hkept : ∀ m ∈ markers, ¬m <+: c :: cs) (h : Factored cs ps) :
    Factored (c :: cs) (ps.modifyHead (c :: ·)) := by
  cases h with
  | last hno =>
    apply Factored.last
    intro m hm hinfix
    rcases List.infix_cons_iff.1 hinfix with hprefix | hinfix
    · exact hkept m hm hprefix
    · exact hno m hm hinfix
  | @marker p m rest ps hm hleft hrest =>
    change Factored (c :: p ++ (m ++ rest)) ((c :: p) :: ps)
    apply Factored.marker hm _ hrest
    intro u m' v hm' heq
    cases u with
    | nil => exact absurd ⟨v, heq.symm⟩ (hkept m' hm')
    | cons d u =>
      have hle := hleft u m' v hm' (List.cons.inj heq).2
      simp only [List.length_cons]
      omega

theorem factored_pieces (text : List Char) : Factored text (pieces text) := by
  have hmarker {m : List Char} (hm : m ∈ markers) {rest : List Char}
      (h : Factored rest (pieces rest)) : Factored (m ++ rest) ([] :: pieces rest) :=
    Factored.marker (p := []) hm (fun _ _ _ _ _ => Nat.zero_le _) h
  fun_induction pieces text with
  | case1 cs ih => exact hmarker (m := ['/', '*']) (by decide) ih
  | case2 cs ih => exact hmarker (m := ['*', '/']) (by decide) ih
  | case3 cs ih => exact hmarker (m := ['/', '/']) (by decide) ih
  | case4 c cs h₁ h₂ h₃ ih => exact factored_cons (fun m hm => not_prefix_of_kept h₁ h₂ h₃ hm) ih
  | case5 => exact Factored.last (by decide)

/-- A text falls into pieces in one way. -/
theorem factored_iff {text : List Char} {ps : List (List Char)} :
    Factored text ps ↔ ps = pieces text := by
  constructor
  · intro h
    induction h with
    | last hno => exact (pieces_of_no_marker hno).symm
    | marker hm hleft _ ih => rw [pieces_of_leftmost hm hleft, ih]
  · rintro rfl
    exact factored_pieces text

/-! ## The characters that are left -/

/-- The characters of the text that are neither blank nor among the given ones. -/
def without (marks text : List Char) : List Char :=
  text.filter fun c => !isBlank c && !marks.contains c

theorem without_append (marks cs ds : List Char) :
    without marks (cs ++ ds) = without marks cs ++ without marks ds :=
  List.filter_append cs ds

theorem without_cons_of_blank {c : Char} (h : isBlank c = true) (marks cs : List Char) :
    without marks (c :: cs) = without marks cs := by
  simp [without, h]

theorem without_cons_of_mem {c : Char} {marks : List Char} (h : c ∈ marks) (cs : List Char) :
    without marks (c :: cs) = without marks cs := by
  simp [without, h]

theorem without_cons_congr {cs ds marks : List Char} (h : without marks cs = without marks ds)
    (c : Char) : without marks (c :: cs) = without marks (c :: ds) := by
  unfold without at *
  rw [List.filter_cons, List.filter_cons, h]

theorem without_eq_nil {marks cs : List Char}
    (h : ∀ c ∈ cs, isBlank c = true ∨ c ∈ marks) : without marks cs = [] := by
  apply List.filter_eq_nil_iff.2
  intro c hc
  rcases h c hc with hblank | hmem
  · simp [hblank]
  · simp [hmem]

theorem without_trim (marks cs : List Char) : without marks (trim cs) = without marks cs := by
  obtain ⟨u, v, heq, hu, hv⟩ := exists_trim cs
  have hu : without marks u = [] := without_eq_nil fun c hc => .inl (hu c hc)
  have hv : without marks v = [] := without_eq_nil fun c hc => .inl (hv c hc)
  conv => rhs; rw [heq, without_append, without_append, hu, hv]
  simp

theorem without_stripDecoration {marks : List Char} (hstar : '*' ∈ marks) (line : List Char) :
    without marks (stripDecoration line) = without marks line := by
  have hlead : without marks (line.takeWhile isDecoration) = [] := by
    apply without_eq_nil
    intro c hc
    have hdecoration : isDecoration c = true := List.mem_takeWhile_imp hc
    simp only [isDecoration, Bool.or_eq_true, beq_iff_eq] at hdecoration
    rcases hdecoration with rfl | rfl
    · exact .inl (by decide)
    · exact .inr hstar
  conv => rhs; rw [← List.takeWhile_append_dropWhile (p := isDecoration) (l := line)]
  rw [without_append, hlead]
  rfl

theorem without_flatten_lines (marks cs : List Char) :
    without marks (lines cs).flatten = without marks cs := by
  fun_induction lines cs with
  | case1 => rfl
  | case2 cs ih => rw [without_cons_of_blank (by decide), List.flatten_cons, List.nil_append, ih]
  | case3 cs ih =>
    rw [without_cons_of_blank (by decide), without_cons_of_blank (by decide), List.flatten_cons,
      List.nil_append, ih]
  | case4 c cs _ _ hl ih =>
    rw [hl] at ih
    exact without_cons_congr ih c
  | case5 c cs _ _ l ls hl ih =>
    rw [hl] at ih
    exact without_cons_congr ih c

theorem without_join {marks : List Char} (hstar : '*' ∈ marks) (ls : List (List Char)) :
    without marks (['\n'].intercalate (ls.map stripDecoration)) = without marks ls.flatten := by
  induction ls with
  | nil => rfl
  | cons l ls ih =>
    cases ls with
    | nil => simp [without_stripDecoration hstar]
    | cons l' ls =>
      rw [List.map_cons] at ih
      rw [List.map_cons, List.map_cons, List.intercalate_cons_cons, List.append_assoc,
        without_append, without_stripDecoration hstar, List.singleton_append,
        without_cons_of_blank (by decide), ih, List.flatten_cons (l := l), without_append]

/-- A description has the characters that are left without the markers, except for blanks and
stars. -/
theorem without_descriptionChars {marks : List Char} (hstar : '*' ∈ marks) (text : List Char) :
    without marks (descriptionChars text) = without marks (stripMarkers text) := by
  unfold descriptionChars
  split
  · rw [without_trim, without_join hstar, without_flatten_lines]
  · rw [without_trim]

theorem without_stripMarkers {marks : List Char} (hstar : '*' ∈ marks) (hslash : '/' ∈ marks)
    (text : List Char) : without marks (stripMarkers text) = without marks text := by
  fun_induction stripMarkers text with
  | case1 cs ih => rw [ih, without_cons_of_mem hslash, without_cons_of_mem hstar]
  | case2 cs ih => rw [ih, without_cons_of_mem hstar, without_cons_of_mem hslash]
  | case3 cs ih => rw [ih, without_cons_of_mem hslash, without_cons_of_mem hslash]
  | case4 c cs _ _ _ ih => exact without_cons_congr ih c
  | case5 => rfl

/-! ## Ends of texts and starts of lines -/

/-- The text neither starts nor ends with a blank. -/
def IsTrimmed (text : List Char) : Prop :=
  (∀ c ∈ text.head?, isBlank c = false) ∧ ∀ c ∈ text.getLast?, isBlank c = false

theorem isTrimmed_trim (cs : List Char) : IsTrimmed (trim cs) := by
  constructor
  · intro c hc
    have hhead := List.head?_dropWhile_not isBlank (trim cs)
    rw [dropWhile_trim, Option.mem_def.1 hc] at hhead
    exact hhead
  · intro c hc
    exact getLast?_trimEnd hc

/-- What the first line starts with, the text starts with. -/
theorem head_of_head_lines {a : Char} {cs l : List Char} (hl : l ∈ (lines cs).head?)
    (ha : l.head? = some a) : cs.head? = some a := by
  obtain ⟨rest, hrest⟩ := prefix_of_head_lines hl
  rw [← hrest, List.head?_append, ha, Option.some_or]

/-- What a further line starts with stands behind a line feed. -/
theorem pair_of_mem_tail_lines {a : Char} {cs l : List Char} (hl : l ∈ (lines cs).tail)
    (ha : l.head? = some a) : ['\n', a] <:+: cs := by
  -- the line that follows a line feed starts the rest of the text
  have hnext {cs : List Char} (ih : l ∈ (lines cs).tail → ['\n', a] <:+: cs) (hl : l ∈ lines cs) :
      ['\n', a] <:+: '\n' :: cs := by
    rw [List.infix_cons_iff]
    cases hls : lines cs with
    | nil => rw [hls] at hl; cases hl
    | cons l' ls =>
      rw [hls] at hl ih
      rcases List.mem_cons.1 hl with rfl | hl
      · have hhead : cs.head? = some a := head_of_head_lines (by rw [hls]; rfl) ha
        obtain ⟨ds, rfl⟩ := List.head?_eq_some_iff.1 hhead
        exact .inl (List.prefix_append ['\n', a] ds)
      · exact .inr (ih hl)
  fun_induction lines cs with
  | case1 => cases hl
  | case2 cs ih => exact hnext ih hl
  | case3 cs ih => exact (hnext ih hl).trans (List.suffix_cons '\r' _).isInfix
  | case4 c cs _ _ _ _ => cases hl
  | case5 c cs _ _ l' ls hls ih =>
    rw [hls] at ih
    exact (ih hl).trans (List.suffix_cons c cs).isInfix

/-- Where lines are joined, what stands behind a line feed starts a line. -/
theorem mem_head_of_pair_join {a : Char} (ha : a ≠ '\n') {ls : List (List Char)}
    (hls : ∀ l ∈ ls, '\n' ∉ l) (h : ['\n', a] <:+: ['\n'].intercalate ls) :
    ∃ l ∈ ls, l.head? = some a := by
  have hpair {l : List Char} (hl : l ∈ ls) : ¬['\n', a] <:+: l := fun h =>
    hls l hl (h.mem List.mem_cons_self)
  induction ls with
  | nil => exact absurd h not_pair_infix_nil
  | cons l ls ih =>
    cases ls with
    | nil =>
      rw [List.intercalate_singleton] at h
      exact absurd h (hpair List.mem_cons_self)
    | cons l' ls =>
      rw [List.intercalate_cons_cons, List.append_assoc, List.singleton_append,
        pair_infix_append_iff, List.infix_cons_iff] at h
      rcases h with h | (hstart | h) | ⟨hlast, -⟩
      · exact absurd h (hpair List.mem_cons_self)
      · -- the next line starts here, and is not empty
        have hhead : (['\n'].intercalate (l' :: ls)).head? = some a := by
          obtain ⟨ds, hds⟩ := (List.cons_prefix_cons.1 hstart).2
          rw [← hds]
          rfl
        refine ⟨l', List.mem_cons_of_mem l List.mem_cons_self, ?_⟩
        cases l' with
        | nil =>
          cases ls with
          | nil => cases hhead
          | cons l'' ls => exact absurd (Option.some.inj hhead).symm ha
        | cons c l' =>
          cases ls with
          | nil => exact hhead
          | cons l'' ls => exact hhead
      · obtain ⟨t, ht, hhead⟩ := ih (fun t ht => hls t (List.mem_cons_of_mem l ht)) h
          (fun ht => hpair (List.mem_cons_of_mem l ht))
        exact ⟨t, List.mem_cons_of_mem l ht, hhead⟩
      · exact absurd (List.mem_of_getLast? hlast) (hls l List.mem_cons_self)

/-- No line of the description of a block comment starts with a space. -/
theorem head_ne_space {text line : List Char} (hblock : isBlock text = true)
    (hline : line ∈ lines (descriptionChars text)) : line.head? ≠ some ' ' := by
  intro hspace
  have htrimmed : IsTrimmed (descriptionChars text) := by
    rw [← trim_descriptionChars]
    exact isTrimmed_trim _
  have hpair : ['\n', ' '] <:+: descriptionChars text := by
    cases hls : lines (descriptionChars text) with
    | nil => rw [hls] at hline; cases hline
    | cons l ls =>
      rw [hls] at hline
      rcases List.mem_cons.1 hline with rfl | hline
      · have hhead := head_of_head_lines (by rw [hls]; rfl) hspace
        exact absurd (htrimmed.1 ' ' hhead) (by decide)
      · exact pair_of_mem_tail_lines (by rw [hls]; exact hline) hspace
  rw [descriptionChars, if_pos hblock] at hpair
  generalize hkept : (lines (stripMarkers text)).map stripDecoration = ls at hpair
  have hno : ∀ l ∈ ls, '\n' ∉ l := by
    intro l hl
    obtain ⟨m, hm, rfl⟩ := List.mem_map.1 (hkept ▸ hl)
    exact fun h => not_mem_of_mem_lines hm ((List.dropWhile_suffix isDecoration).mem h)
  -- trimming makes no pairs, and the lines that are joined start with no decoration
  have hjoin : ['\n', ' '] <:+: ['\n'].intercalate ls := by
    obtain ⟨u, v, heq, -⟩ := exists_trim (['\n'].intercalate ls)
    rw [heq]
    exact hpair.trans ⟨u, v, List.append_assoc u _ v⟩
  obtain ⟨l, hl, hhead⟩ := mem_head_of_pair_join (by decide) hno hjoin
  obtain ⟨m, -, rfl⟩ := List.mem_map.1 (hkept ▸ hl)
  exact absurd (not_decoration_of_mem_head? hhead) (by decide)

/-! ## Descriptions -/

/-- The text is the other one without blanks at its ends. -/
def IsTrimOf (trimmed text : List Char) : Prop :=
  IsTrimmed trimmed ∧ ∃ u v, text = u ++ (trimmed ++ v) ∧
    (∀ c ∈ u, isBlank c = true) ∧ ∀ c ∈ v, isBlank c = true

theorem isTrimOf_trim (cs : List Char) : IsTrimOf (trim cs) cs :=
  ⟨isTrimmed_trim cs, exists_trim cs⟩

/-- Without its markers, a text is the pieces it falls into at them. The description of a text that
is no block comment is this with the blanks taken off both ends. That of a block comment has the
same characters except for blanks and stars, in the same order; it is trimmed too, and no line of
it starts with a space. So no description loses a character of the text other than blanks, slashes
and stars. -/
theorem description_remainder (text : String) :
    (∃ ps, Factored text.toList ps ∧ (∀ qs, Factored text.toList qs → qs = ps) ∧
      stripMarkers text.toList = ps.flatten) ∧
    (¬['/', '*'] <+: text.toList →
      IsTrimOf (description text).toList (stripMarkers text.toList)) ∧
    (['/', '*'] <+: text.toList →
      without ['*'] (description text).toList = without ['*'] (stripMarkers text.toList) ∧
      (∀ line ∈ lines (description text).toList, line.head? ≠ some ' ') ∧
      IsTrimmed (description text).toList) ∧
    without ['/', '*'] (description text).toList = without ['/', '*'] text.toList := by
  rw [toList_description]
  generalize text.toList = cs
  refine ⟨?_, ?_, ?_, ?_⟩
  · refine ⟨pieces cs, factored_pieces cs, ?_, (flatten_pieces cs).symm⟩
    intro qs h
    exact factored_iff.1 h
  · intro hline
    have hblock : ¬isBlock cs = true := fun h => hline (List.isPrefixOf_iff_prefix.1 h)
    rw [descriptionChars, if_neg hblock]
    exact isTrimOf_trim (stripMarkers cs)
  · intro hstart
    have hblock : isBlock cs = true := List.isPrefixOf_iff_prefix.2 hstart
    refine ⟨without_descriptionChars (by decide) cs, ?_, ?_⟩
    · intro line hmem
      exact head_ne_space hblock hmem
    · rw [← trim_descriptionChars]
      exact isTrimmed_trim _
  · rw [without_descriptionChars (by decide), without_stripMarkers (by decide) (by decide)]

/-- The markers of a comment can overlap: the slash that ends one does not start another. -/
theorem description_remainder_of_overlap :
    (['/', '*'] <+: "/*/ a\r\n  ** b\t*/".toList ∧
      IsTrimmed (description "/*/ a\r\n  ** b\t*/").toList ∧
      description "/*/ a\r\n  ** b\t*/" = "/ a\nb") ∧
    (¬['/', '*'] <+: "/// a //b".toList ∧
      IsTrimOf (description "/// a //b").toList (stripMarkers "/// a //b".toList) ∧
      description "/// a //b" = "/ a b") := by
  have hblock : ['/', '*'] <+: "/*/ a\r\n  ** b\t*/".toList := by decide
  have hline : ¬['/', '*'] <+: "/// a //b".toList := by decide
  obtain ⟨-, -, hdescription, -⟩ := description_remainder "/*/ a\r\n  ** b\t*/"
  obtain ⟨-, htrim, -, -⟩ := description_remainder "/// a //b"
  exact ⟨⟨hblock, (hdescription hblock).2.2, by decide +kernel⟩,
    ⟨hline, htrim hline, by decide +kernel⟩⟩

end CStruct.Comment
