import CStruct.Proofs.Rendering.Adjacent
import CStruct.Proofs.Rendering.Gaps

/-!
# The tokens of a rendering

The lexemes of a rendered text are the ones that were written down, as long as no lexeme runs on into
what stands behind it. A word ends where the next character belongs to no word. A keyword could go on
with a second word, and a name could be the first word of a keyword, so what may follow them matters.
-/

namespace CStruct.Rendering

open Scanner

/-! ## Where a lexeme ends -/

def startsWord (cs : List Char) : Bool := cs.head?.any Text.isWordChar

/-- Whether a lexeme can stand before a text without running on into it. -/
def EndsBefore (l : Lexeme) (tail : List Char) : Prop :=
  match l.kind with
  | .number => ∀ c ∈ tail.head?, c.isDigit = false
  | .type => startsWord tail = false ∧ standsAlone tail " long" = false
  | .name => startsWord tail = false ∧
      (PrecedesWord l ∨ ∀ cs, tail = ' ' :: cs → startsWord cs = false)
  | _ => True

section EndsBefore

variable {l : Lexeme} {tail : List Char}

theorem endsBefore_number_iff (h : l.kind = .number) :
    EndsBefore l tail ↔ ∀ c ∈ tail.head?, c.isDigit = false := by
  rw [EndsBefore, h]

theorem endsBefore_type_iff (h : l.kind = .type) :
    EndsBefore l tail ↔ startsWord tail = false ∧ standsAlone tail " long" = false := by
  rw [EndsBefore, h]

theorem endsBefore_name_iff (h : l.kind = .name) :
    EndsBefore l tail ↔ startsWord tail = false ∧
      (PrecedesWord l ∨ ∀ cs, tail = ' ' :: cs → startsWord cs = false) := by
  rw [EndsBefore, h]

end EndsBefore

theorem startsWith_append (word : String) (tail : List Char) :
    startsWith word (word.toList ++ tail) = true :=
  List.isPrefixOf_iff_prefix.2 (List.prefix_append _ _)

theorem drop_length_append (word : String) (tail : List Char) :
    (word.toList ++ tail).drop word.length = tail := by
  rw [← String.length_toList, List.drop_left]

theorem standsAlone_append {word : String} {tail : List Char} (h : startsWord tail = false) :
    standsAlone (word.toList ++ tail) word = true := by
  rw [standsAlone, startsWith_append, drop_length_append]
  show (true && !startsWord tail) = true
  rw [h]
  rfl

/-- Two words at the start of one text. -/
theorem isPrefixOf_or_of_startsWith {a b : String} {tail : List Char}
    (h : startsWith b (a.toList ++ tail) = true) :
    b.toList <+: a.toList ∨ ∃ more, b.toList = a.toList ++ more ∧ more <+: tail := by
  have hb := List.isPrefixOf_iff_prefix.1 h
  rcases Nat.le_total b.toList.length a.toList.length with hle | hle
  · exact .inl (List.prefix_of_prefix_length_le hb (List.prefix_append _ _) hle)
  · obtain ⟨more, hmore⟩ := List.prefix_of_prefix_length_le (List.prefix_append _ tail) hb hle
    rw [← hmore, List.prefix_append_right_inj] at hb
    exact .inr ⟨more, hmore.symm, hb⟩

/-! ## Type keywords -/

-- The only keywords that another one goes on from end in `long`.
theorem keyword_of_longer {a b : String} (ha : a ∈ Lexicon.typeKeywords)
    (hb : b ∈ Lexicon.typeKeywords) (h : a.toList <+: b.toList) :
    b = a ∨ b.toList = a.toList ++ " long".toList := by
  have hall : ∀ a ∈ Lexicon.typeKeywords, ∀ b ∈ Lexicon.typeKeywords,
      a.toList.isPrefixOf b.toList = true → b = a ∨ b.toList = a.toList ++ " long".toList := by
    decide
  exact hall a ha b hb (List.isPrefixOf_iff_prefix.2 h)

-- Inside a keyword, a single space stands between two words.
theorem startsWord_of_inside_keyword {word : String} (hword : word ∈ Lexicon.typeKeywords)
    {cs ds : List Char} {c : Char} (h : word.toList = cs ++ c :: ds)
    (hc : Text.isWordChar c = false) : c = ' ' ∧ startsWord ds = true := by
  have hall : ∀ word ∈ Lexicon.typeKeywords, ∀ n < word.length,
      (word.toList.drop n).head?.all (fun c => Text.isWordChar c || c == ' ') = true ∧
        ((word.toList.drop n).head? = some ' ' → startsWord (word.toList.drop (n + 1)) = true) := by
    decide +kernel
  have hlt : cs.length < word.length := by
    rw [← String.length_toList, h, List.length_append, List.length_cons]
    omega
  obtain ⟨hchar, hspace⟩ := hall word hword cs.length hlt
  have hdrop : word.toList.drop (cs.length + 1) = ds := by
    rw [h, ← List.drop_drop, List.drop_left]
    rfl
  rw [hdrop] at hspace
  rw [h, List.drop_left] at hchar hspace
  have hc : c = ' ' := by
    have : (Text.isWordChar c || c == ' ') = true := hchar
    rw [hc, Bool.false_or, beq_iff_eq] at this
    exact this
  exact ⟨hc, hspace (by rw [hc]; rfl)⟩

theorem standsAlone_of_longer {a b : String} {more tail : List Char} (h : b.toList = a.toList ++ more)
    (hb : standsAlone (a.toList ++ tail) b = true) : standsAlone tail (String.ofList more) = true := by
  obtain ⟨hstart, hstop⟩ := Bool.and_eq_true_iff.1 hb
  have hdrop : (a.toList ++ tail).drop b.length = tail.drop more.length := by
    rw [← String.length_toList, h, List.length_append, ← List.drop_drop, List.drop_left]
  rw [hdrop] at hstop
  rw [startsWith, h, List.isPrefixOf_iff_prefix, List.prefix_append_right_inj,
    ← List.isPrefixOf_iff_prefix] at hstart
  rw [standsAlone, startsWith, String.toList_ofList, hstart, String.length_ofList, hstop]
  rfl

theorem keyword?_keyword {before : Option Char} {word : String} (hword : word ∈ Lexicon.typeKeywords)
    {tail : List Char} (hbefore : before.any Text.isWordChar = false)
    (htail : startsWord tail = false) (hlong : standsAlone tail " long" = false) :
    keyword? before (word.toList ++ tail) = some word := by
  have hmem : word ∈ Lexicon.typeKeywords.filter (standsAlone (word.toList ++ tail)) :=
    List.mem_filter.2 ⟨hword, standsAlone_append htail⟩
  rw [keyword?, if_neg (by rw [hbefore]; exact Bool.false_ne_true)]
  cases hmax : (Lexicon.typeKeywords.filter (standsAlone (word.toList ++ tail))).argmax
      String.length with
  | none =>
    rw [List.argmax_eq_none] at hmax
    rw [hmax] at hmem
    cases hmem
  | some found =>
    have hle : word.length ≤ found.length := List.le_of_mem_argmax hmem hmax
    obtain ⟨hfound, hstands⟩ := List.mem_filter.1 (List.argmax_mem hmax)
    rw [Option.some_inj]
    rcases isPrefixOf_or_of_startsWith (Bool.and_eq_true_iff.1 hstands).1 with h | ⟨more, h, -⟩
    · rw [← String.length_toList, ← String.length_toList] at hle
      exact String.toList_inj.1 (h.eq_of_length_le hle)
    · rcases keyword_of_longer hword hfound ⟨more, h.symm⟩ with h' | h'
      · exact h'
      · rw [h, List.append_cancel_left_eq] at h'
        rw [h'] at h
        have := standsAlone_of_longer h hstands
        rw [String.ofList_toList, hlong] at this
        cases this

theorem not_standsAlone_of_name {l : Lexeme} (hkind : l.kind = .name) (hl : l.IsSpelled)
    (hnamed : l.text ∉ Lexicon.typeKeywords) {tail : List Char} (h : EndsBefore l tail)
    {word : String} (hword : word ∈ Lexicon.typeKeywords) :
    standsAlone (l.text.toList ++ tail) word = false := by
  obtain ⟨c, cs, htext, hstart, hrest⟩ := hl.of_name hkind
  have hchars : l.text.toList.all isNameRest = true := by
    rw [htext, String.toList_ofList, List.all_cons, isNameRest_of_isNameStart hstart, hrest]
    rfl
  obtain ⟨htail, hlonger⟩ := (endsBefore_name_iff hkind).1 h
  rw [Bool.eq_false_iff]
  intro hstands
  rcases isPrefixOf_or_of_startsWith (Bool.and_eq_true_iff.1 hstands).1 with
    ⟨more, hmore⟩ | ⟨more, hmore, hfollows⟩
  · -- the keyword stops inside the name, where it does not stand alone
    cases more with
    | nil =>
      rw [List.append_nil] at hmore
      exact hnamed (String.toList_inj.1 hmore ▸ hword)
    | cons d more =>
      have hd : Text.isWordChar d = true := by
        rw [← hmore, List.all_append, List.all_cons] at hchars
        simp only [Bool.and_eq_true] at hchars
        exact isWordChar_of_isNameRest hchars.2.1
      have hstop := (Bool.and_eq_true_iff.1 hstands).2
      rw [← hmore, List.append_assoc, drop_length_append] at hstop
      simp [hd] at hstop
  · -- the keyword goes on behind the name
    cases more with
    | nil =>
      rw [List.append_nil] at hmore
      exact hnamed (String.toList_inj.1 hmore ▸ hword)
    | cons d more =>
      obtain ⟨rest, rfl⟩ := hfollows
      obtain ⟨rfl, hsecond⟩ := startsWord_of_inside_keyword hword hmore htail
      rcases hlonger with hprecedes | hlonger
      · have hall : ∀ word ∈ Lexicon.typeKeywords, ¬"struct".toList <+: word.toList ∧
            ¬"typedef".toList <+: word.toList := by decide
        rcases hprecedes with heq | heq
        · exact (hall word hword).1 (heq ▸ ⟨_, hmore.symm⟩)
        · exact (hall word hword).2 (heq ▸ ⟨_, hmore.symm⟩)
      · have hthird := hlonger (more ++ rest) rfl
        cases more with
        | nil => cases hsecond
        | cons e more =>
          rw [show startsWord (e :: more ++ rest) = startsWord (e :: more) from rfl, hsecond] at hthird
          cases hthird

/-! ## One lexeme -/

theorem isDigit_of_isNameStart {c : Char} (h : isNameStart c = true) : c.isDigit = false := by
  cases hdigit : c.isDigit with
  | false => rfl
  | true =>
    unfold isNameStart at h
    simp only [isAlpha_iff, Char.isDigit, Bool.or_eq_true,
      Bool.and_eq_true, decide_eq_true_eq, beq_iff_eq, ge_iff_le, UInt32.le_iff_toNat_le] at h hdigit
    rcases h with (h | h) | rfl
    · exact absurd (Nat.le_trans h.1 hdigit.2) (by decide)
    · exact absurd (Nat.le_trans h.1 hdigit.2) (by decide)
    · exact absurd hdigit.2 (by decide)

theorem head_of_typeKeyword {word : String} (hword : word ∈ Lexicon.typeKeywords) :
    ∃ c cs, word.toList = c :: cs ∧ Text.isBlank c = false ∧ c ≠ '/' ∧ c.isDigit = false := by
  have hall : ∀ word ∈ Lexicon.typeKeywords, word.toList.head?.any
      (fun c => !Text.isBlank c && c != '/' && !c.isDigit) = true := by decide
  have hhead := hall word hword
  cases hchars : word.toList with
  | nil =>
    rw [hchars] at hhead
    cases hhead
  | cons c cs =>
    rw [hchars] at hhead
    simp only [List.head?_cons, Option.any_some, Bool.and_eq_true, Bool.not_eq_true', bne_iff_ne]
      at hhead
    exact ⟨c, cs, rfl, hhead.1.1, hhead.1.2, hhead.2⟩

-- The first character of a lexeme.
theorem head_of_isSpelled {l : Lexeme} (hl : l.IsSpelled) (hkind : l.kind ≠ .comment) :
    ∃ c cs, l.text.toList = c :: cs ∧ Text.isBlank c = false ∧ c ≠ '/' ∧
      (c.isDigit = true ↔ l.kind = .number) ∧ (l.kind = .operator → Text.isWordChar c = false) := by
  cases hk : l.kind with
  | comment => exact absurd hk hkind
  | number =>
    obtain ⟨hne, hall⟩ := hl.of_number hk
    cases htext : l.text.toList with
    | nil => exact absurd (String.toList_inj.1 htext) hne
    | cons c cs =>
      rw [htext, List.all_cons, Bool.and_eq_true] at hall
      refine ⟨c, cs, rfl, isBlank_of_isDigit hall.1, ?_, iff_of_true hall.1 rfl, nofun⟩
      rintro rfl
      cases hall.1
  | type =>
    obtain ⟨c, cs, htext, hblank, hslash, hdigit⟩ := head_of_typeKeyword (hl.of_type hk)
    exact ⟨c, cs, htext, hblank, hslash, iff_of_false (by rw [hdigit]; nofun) nofun, nofun⟩
  | name =>
    obtain ⟨c, cs, htext, hstart, -⟩ := hl.of_name hk
    refine ⟨c, cs, by rw [htext, String.toList_ofList], ?_, ?_,
      iff_of_false (by rw [isDigit_of_isNameStart hstart]; nofun) nofun, nofun⟩
    · exact isBlank_of_isWordChar (isWordChar_of_isNameRest (isNameRest_of_isNameStart hstart))
    · rintro rfl
      cases hstart
  | operator =>
    obtain ⟨c, hc, htext⟩ := hl.of_operator hk
    have hall : operators.all (fun c => Text.isBlank c = false ∧ c ≠ '/' ∧ c.isDigit = false ∧
        Text.isWordChar c = false) = true := by decide
    obtain ⟨hblank, hslash, hdigit, hword⟩ := of_decide_eq_true (List.all_eq_true.1 hall c hc)
    exact ⟨c, [], by rw [htext, String.toList_ofList], hblank, hslash,
      iff_of_false (by rw [hdigit]; nofun) nofun, fun _ => hword⟩

theorem solid_of_isSpelled {l : Lexeme} (hl : l.IsSpelled) (hkind : l.kind ≠ .comment)
    (tail : List Char) : Solid (l.text.toList ++ tail) := by
  obtain ⟨c, cs, htext, hblank, hslash, -⟩ := head_of_isSpelled hl hkind
  rw [htext]
  rintro _ ⟨⟩
  exact ⟨hblank, hslash⟩

/-- Digits that no digit follows are read as one number. -/
theorem run?_append {digits tail : List Char} (hne : digits ≠ [])
    (hall : digits.all Char.isDigit = true) (hends : ∀ c ∈ tail.head?, c.isDigit = false) :
    run? Char.isDigit (digits ++ tail) = some digits.length := by
  rw [run?, runLength_append hall hends, if_neg]
  exact fun hzero => hne (List.length_eq_zero_iff.1 hzero)

/-- A name that no character of a word follows is read to its end. -/
theorem name?_append {c : Char} {cs tail : List Char} (hstart : isNameStart c = true)
    (hrest : cs.all isNameRest = true) (hends : startsWord tail = false) :
    name? (c :: (cs ++ tail)) = some (cs.length + 1) := by
  have hstop : ∀ c ∈ tail.head?, isNameRest c = false := by
    intro d hd
    rw [startsWord, Option.mem_def.1 hd, Option.any_some] at hends
    rw [Bool.eq_false_iff]
    intro hrest
    rw [isWordChar_of_isNameRest hrest] at hends
    cases hends
  rw [name?, if_pos hstart, runLength_append hrest hstop]

theorem keyword?_name {before : Option Char} {l : Lexeme} {tail : List Char}
    (hkind : l.kind = .name) (hl : l.IsSpelled) (hnamed : l.text ∉ Lexicon.typeKeywords)
    (htail : EndsBefore l tail) : keyword? before (l.text.toList ++ tail) = none := by
  unfold keyword?
  split
  · rfl
  · rw [List.argmax_eq_none, List.filter_eq_nil_iff]
    intro word hword
    rw [not_standsAlone_of_name hkind hl hnamed htail hword]
    exact Bool.false_ne_true

/-- A lexeme is one piece of a text if it does not run on. -/
theorem pieceAt_lexeme {before : Option Char} {l : Lexeme} {tail : List Char} (hl : l.IsSpelled)
    (hkind : l.kind ≠ .comment) (hnamed : l.kind = .name → l.text ∉ Lexicon.typeKeywords)
    (hbefore : l.kind = .type → before.any Text.isWordChar = false) (htail : EndsBefore l tail) :
    pieceAt before (l.text.toList ++ tail) = (some l.kind, l.text.length) := by
  obtain ⟨c, cs, htext, -, hslash, hdigit, hoperator⟩ := head_of_isSpelled hl hkind
  obtain ⟨hblock, hline⟩ := no_comment (cs ++ tail) hslash
  have hnumber (h : l.kind ≠ .number) : run? Char.isDigit (c :: (cs ++ tail)) = none :=
    no_run (Bool.eq_false_iff.2 fun hc => h (hdigit.1 hc))
  have hlength : l.text.length = cs.length + 1 := by
    rw [← String.length_toList, htext, List.length_cons]
  -- the measures are taken in turn: each but the one of the lexeme's kind finds nothing before it
  unfold pieceAt measures
  cases hk : l.kind with
  | comment => exact absurd hk hkind
  | number =>
    have hrun := run?_append (by rw [htext]; exact List.cons_ne_nil _ _) (hl.of_number hk).2
      ((endsBefore_number_iff hk).1 htail)
    rw [hrun, htext, List.cons_append, hblock, hline, hlength, List.length_cons]
    rfl
  | type =>
    have hends := (endsBefore_type_iff hk).1 htail
    rw [keyword?_keyword (hl.of_type hk) (hbefore hk) hends.1 hends.2, htext, List.cons_append,
      hblock, hline, hnumber (by rw [hk]; decide)]
    rfl
  | name =>
    obtain ⟨d, ds, hd, hstart, hrest⟩ := hl.of_name hk
    obtain ⟨rfl, rfl⟩ : d = c ∧ ds = cs := by
      rw [hd, String.toList_ofList, List.cons.injEq] at htext
      exact htext
    have hname := name?_append hstart hrest ((endsBefore_name_iff hk).1 htail).1
    rw [keyword?_name hk hl (hnamed hk) htail, htext, List.cons_append, hblock, hline,
      hnumber (by rw [hk]; decide), hname, hlength]
    rfl
  | operator =>
    obtain ⟨d, hd, htext'⟩ := hl.of_operator hk
    obtain ⟨rfl, rfl⟩ : d = c ∧ [] = cs := by
      rw [htext', String.toList_ofList, List.cons.injEq] at htext
      exact htext
    have hword := hoperator hk
    rw [htext, List.cons_append, hblock, hline, hnumber (by rw [hk]; decide), no_keyword hword,
      no_name (isNameStart_of_not_isWordChar hword), operator?, if_pos hd, hlength]
    rfl

/-! ## All lexemes -/

theorem startsWord_gap {gap : List Char} (h : Gap gap) (hne : gap ≠ []) (rest : List Char) :
    startsWord (gap ++ rest) = false := by
  cases h with
  | nil => exact absurd rfl hne
  | cons hseparator hgap =>
    cases hseparator with
    | blank hc => exact isWordChar_of_isBlank hc
    | blockComment => rfl
    | lineComment => rfl

theorem isWordChar_getLast_gap {gap : List Char} (h : Gap gap) :
    gap.getLast?.any Text.isWordChar = false := by
  induction h with
  | nil => rfl
  | @cons separator gap hseparator hgap ih =>
    have hlast : separator.getLast?.any Text.isWordChar = false := by
      cases hseparator with
      | blank hc => exact isWordChar_of_isBlank hc
      | @blockComment body =>
        rw [← List.cons_append, ← List.cons_append, List.getLast?_append]
        rfl
      | @lineComment body =>
        rw [← List.cons_append, ← List.cons_append, List.getLast?_append]
        rfl
    rw [List.getLast?_append]
    cases hgap : gap.getLast? with
    | none => exact hlast
    | some c =>
      rw [hgap] at ih
      exact ih

theorem gap_of_blank_cons {gap : List Char} (h : Gap (' ' :: gap)) : Gap gap := by
  generalize hcs : ' ' :: gap = cs at h
  cases h with
  | nil => cases hcs
  | cons hseparator hgap =>
    cases hseparator with
    | blank hc =>
      cases hcs
      exact hgap
    | blockComment => cases hcs
    | lineComment => cases hcs

-- After a single space, a gap goes on with no word unless it ends there.
theorem startsWord_second {gap rest cs : List Char} (hgap : Gap gap)
    (hspace : gap ++ rest = ' ' :: cs) (hrest : rest.head? ≠ some ' ') :
    startsWord cs = false ∨ cs = rest := by
  cases gap with
  | nil =>
    rw [List.nil_append] at hspace
    rw [hspace] at hrest
    exact absurd rfl hrest
  | cons c gap =>
    rw [List.cons_append, List.cons.injEq] at hspace
    obtain ⟨rfl, rfl⟩ := hspace
    have hgap' := gap_of_blank_cons hgap
    by_cases hne : gap = []
    · exact .inr (by rw [hne]; rfl)
    · exact .inl (startsWord_gap hgap' hne rest)

-- Two items that do not run into each other.
def Separate (a b : Item) : Prop :=
  (IsWordLike a.2 → IsWordLike b.2 → b.1 ≠ []) ∧ MayPrecede a.2 b.2

theorem Spaced.tail {item : Item} {items : List Item} {last : List Char}
    (h : Spaced (item :: items) last) : Spaced items last where
  gap := fun i hi => h.gap i (List.mem_cons_of_mem _ hi)
  last := h.last
  spelled := fun i hi => h.spelled i (List.mem_cons_of_mem _ hi)
  named := fun i hi => h.named i (List.mem_cons_of_mem _ hi)
  apart := h.apart.tail

section Text

variable {items : List Item} {last : List Char}

theorem kind_of_not_isWordLike {l : Lexeme} (hkind : l.kind ≠ .comment) (h : ¬IsWordLike l) :
    l.kind = .operator := by
  unfold IsWordLike at h
  cases hk : l.kind <;> simp_all

theorem startsWord_operator {l : Lexeme} (hl : l.IsSpelled) (hk : l.kind = .operator)
    (tail : List Char) : startsWord (l.text.toList ++ tail) = false := by
  obtain ⟨c, cs, htext, -, -, -, hoperator⟩ := head_of_isSpelled hl (by rw [hk]; nofun)
  rw [htext]
  exact hoperator hk

theorem startsWord_text (h : Spaced items last)
    (happart : ∀ item ∈ items.head?, IsWordLike item.2 → item.1 ≠ []) :
    startsWord (text items last) = false := by
  cases items with
  | nil =>
    show startsWord last = false
    by_cases hne : last = []
    · rw [hne]
      rfl
    · rw [← List.append_nil last]
      exact startsWord_gap h.last hne []
  | cons item items =>
    obtain ⟨gap, l⟩ := item
    obtain ⟨hl, hkind⟩ := h.spelled (gap, l) List.mem_cons_self
    rw [text]
    by_cases hne : gap = []
    · rw [hne]
      exact startsWord_operator hl
        (kind_of_not_isWordLike hkind fun hword => happart (gap, l) rfl hword hne) _
    · exact startsWord_gap (h.gap (gap, l) List.mem_cons_self) hne _

/-- What stands behind a single space. -/
theorem text_of_space (h : Spaced items last) {cs : List Char}
    (hcs : text items last = ' ' :: cs) :
    startsWord cs = false ∨
      ∃ item rest, items = item :: rest ∧ cs = item.2.text.toList ++ text rest last := by
  cases items with
  | nil =>
    have hgap : Gap cs := gap_of_blank_cons (hcs ▸ h.last)
    left
    by_cases hne : cs = []
    · rw [hne]
      rfl
    · rw [← List.append_nil cs]
      exact startsWord_gap hgap hne []
  | cons item items =>
    obtain ⟨gap, l⟩ := item
    obtain ⟨hl, hkind⟩ := h.spelled (gap, l) List.mem_cons_self
    have hsolid := solid_of_isSpelled hl hkind (text items last)
    refine (startsWord_second (h.gap (gap, l) List.mem_cons_self) hcs ?_).imp_right fun heq =>
      ⟨(gap, l), items, rfl, heq⟩
    intro hhead
    cases (hsolid ' ' hhead).1

theorem endsBefore_name {l : Lexeme} (hk : l.kind = .name) (h : Spaced items last)
    (hnext : ∀ item ∈ items.head?, Separate ([], l) item) : EndsBefore l (text items last) := by
  rw [endsBefore_name_iff hk]
  have happart : ∀ item ∈ items.head?, IsWordLike item.2 → item.1 ≠ [] := fun item hitem =>
    (hnext item hitem).1 (.inl hk)
  refine ⟨startsWord_text h happart, ?_⟩
  by_cases hword : PrecedesWord l
  · exact .inl hword
  · right
    intro cs hcs
    rcases text_of_space h hcs with hcs | ⟨item, rest, rfl, rfl⟩
    · exact hcs
    · have hoperator := ((hnext item rfl).2.name hk).resolve_right hword
      exact startsWord_operator (h.spelled item List.mem_cons_self).1 hoperator _

theorem endsBefore_text {l : Lexeme} (h : Spaced items last)
    (hchain : (([], l) :: items).IsChain Separate) : EndsBefore l (text items last) := by
  have hnext : ∀ item ∈ items.head?, Separate ([], l) item := by
    cases hchain with
    | singleton => nofun
    | cons_cons hsep hchain =>
      rintro _ ⟨⟩
      exact hsep
  cases hk : l.kind with
  | comment =>
    rw [EndsBefore, hk]
    trivial
  | operator =>
    rw [EndsBefore, hk]
    trivial
  | number =>
    rw [endsBefore_number_iff hk]
    intro c hc
    have hword := startsWord_text h fun item hitem => (hnext item hitem).1 (.inr (.inr hk))
    rw [startsWord, Option.mem_def.1 hc] at hword
    exact isDigit_of_not_isWordChar hword
  | name => exact endsBefore_name hk h hnext
  | type =>
    -- a type word could only go on with `long`, behind one space
    rw [endsBefore_type_iff hk]
    refine ⟨startsWord_text h fun item hitem => (hnext item hitem).1 (.inr (.inl hk)), ?_⟩
    rw [Bool.eq_false_iff]
    intro hlong
    obtain ⟨cs, hcs⟩ : ∃ cs, text items last = ' ' :: cs := by
      obtain ⟨more, hmore⟩ := List.isPrefixOf_iff_prefix.1 (Bool.and_eq_true_iff.1 hlong).1
      exact ⟨_, hmore.symm⟩
    have hlong : standsAlone cs "long" = true := by
      rw [hcs] at hlong
      exact hlong
    rcases text_of_space h hcs with hword | ⟨⟨gap, n⟩, rest, rfl, rfl⟩
    · obtain ⟨more, hmore⟩ := List.isPrefixOf_iff_prefix.1 (Bool.and_eq_true_iff.1 hlong).1
      rw [← hmore] at hword
      cases hword
    -- what comes behind one space is a name, and no name is `long`
    · have hname : n.kind = .name := (hnext _ rfl).2.type hk
      have hmem : (gap, n) ∈ (gap, n) :: rest := List.mem_cons_self
      have hends : EndsBefore n (text rest last) := by
        refine endsBefore_name hname h.tail ?_
        intro item hitem
        cases rest with
        | nil => cases hitem
        | cons _ _ =>
          cases hitem
          exact (List.isChain_cons_cons.1 hchain.tail).1
      rw [not_standsAlone_of_name hname (h.spelled _ hmem).1 (h.named _ hmem hname) hends
        (by decide)] at hlong
      cases hlong

/-- No word runs up to what stands behind a gap, unless the gap is empty. -/
theorem isWordChar_before {before : Option Char} {gap : List Char} (hgap : Gap gap)
    (hbefore : before.any Text.isWordChar = true → gap ≠ []) :
    (gap.getLast?.or before).any Text.isWordChar = false := by
  have hlast := isWordChar_getLast_gap hgap
  cases hg : gap.getLast? with
  | some c =>
    rw [hg] at hlast
    exact hlast
  | none =>
    rw [Bool.eq_false_iff]
    exact fun hbefore' => hbefore hbefore' (List.getLast?_eq_none_iff.1 hg)

/-- What ends with a character of a word is a word itself. -/
theorem isWordLike_of_getLast {l : Lexeme} (hl : l.IsSpelled) (hkind : l.kind ≠ .comment)
    (hlast : l.text.toList.getLast?.any Text.isWordChar = true) : IsWordLike l := by
  by_contra hnot
  have hk := kind_of_not_isWordLike hkind hnot
  obtain ⟨c, -, htext⟩ := hl.of_operator hk
  have hhead := startsWord_operator hl hk []
  rw [htext, String.toList_ofList] at hlast hhead
  exact Bool.false_ne_true (hhead.symm.trans hlast)

theorem tokensOf_cons {l : Lexeme} (hkind : l.kind ≠ .comment) (s : Span) (ls : List Lexeme) :
    tokensOf (⟨l.kind, l.text, s⟩ :: ls) = ⟨l.kind, l.text, s⟩ :: tokensOf ls := by
  rw [tokensOf, List.filter_cons_of_pos]
  · rfl
  · rw [Lexeme.isComment, beq_eq_false_iff_ne.2 hkind]
    rfl

/-- The tokens that the scanner finds in a text are the ones that were written. The induction is on
the items; what ended before an item only matters for whether a word runs on into it. -/
theorem scan_text (h : Spaced items last) (hchain : items.IsChain Separate) (before : Option Char)
    (hbefore : ∀ item ∈ items.head?, IsWordLike item.2 → before.any Text.isWordChar = true →
      item.1 ≠ []) (p : Position) :
    tokensOf (scan before p (text items last)) = lexemes p items := by
  induction items generalizing before p with
  | nil =>
    have hend : Solid [] := fun c hc => absurd hc (Option.some_ne_none c).symm
    have hscan := scan_gap h.last hend before p
    rw [List.append_nil, scan] at hscan
    exact hscan
  | cons item items ih =>
    obtain ⟨gap, l⟩ := item
    have hmem : (gap, l) ∈ (gap, l) :: items := List.mem_cons_self
    have hgap := h.gap _ hmem
    obtain ⟨hl, hkind⟩ := h.spelled _ hmem
    have hends : EndsBefore l (text items last) := by
      refine endsBefore_text h.tail ?_
      cases hchain with
      | singleton => exact .singleton _
      | cons_cons hsep hchain => exact .cons_cons hsep hchain
    have hword (hk : l.kind = .type) : (gap.getLast?.or before).any Text.isWordChar = false :=
      isWordChar_before hgap (hbefore _ rfl (.inr (.inl hk)))
    have hne : l.text.toList ≠ [] := by
      obtain ⟨c, cs, htext, -⟩ := head_of_isSpelled hl hkind
      rw [htext]
      exact List.cons_ne_nil _ _
    -- behind the gap the scanner takes the lexeme, and no more than that
    have hpiece := pieceAt_lexeme hl hkind (h.named _ hmem) hword hends
    rw [text, scan_gap hgap (solid_of_isSpelled hl hkind _), lexemes,
      scan_of_ne_nil _ _ (List.append_ne_nil_of_left_ne_nil hne _)]
    dsimp only
    rw [hpiece, ← String.length_toList, List.take_left, List.drop_left, String.ofList_toList]
    dsimp only
    rw [tokensOf_cons hkind, ih h.tail hchain.tail]
    intro item hitem hitem' hlast
    have hwordLike := isWordLike_of_getLast hl hkind hlast
    cases items with
    | nil => cases hitem
    | cons _ _ =>
      cases hitem
      exact (List.isChain_cons_cons.1 hchain).1.1 hwordLike hitem'

theorem isChain_separate (h : Spaced items last) {p : Position} (hw : Adjoin (lexemes p items)) :
    items.IsChain Separate := by
  induction items generalizing p with
  | nil => exact .nil
  | cons item items ih =>
    obtain ⟨gap, l⟩ := item
    rw [lexemes] at hw
    have hitems := ih h.tail hw.tail
    cases items with
    | nil => exact .singleton _
    | cons next items =>
      obtain ⟨gap', l'⟩ := next
      have hnext := (List.isChain_cons_cons.1 hw).1
      refine .cons_cons ⟨(List.isChain_cons_cons.1 h.apart).1, ?_⟩ hitems
      exact ⟨hnext.type, hnext.name, hnext.declared⟩

/-- The lexemes of a rendered text are the ones that were written. -/
theorem tokens_text (h : Spaced items last) (hw : Adjoin (lexemes {} items)) :
    Lexicon.tokens (String.ofList (text items last)) = lexemes {} items := by
  rw [Lexicon.tokens, Lexicon.fst_lexemes, Scanner.lexemes, String.toList_ofList]
  exact scan_text h (isChain_separate h hw) none (fun _ _ _ hnone => nomatch hnone) {}

end Text

end CStruct.Rendering
