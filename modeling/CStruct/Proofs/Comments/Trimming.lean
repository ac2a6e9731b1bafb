import CStruct.Comment
import Mathlib.Data.List.DropRight
import Mathlib.Tactic.NthRewrite

/-!
# Trimming and pairs of characters

Which pairs of characters a text holds once it is put together from others, trimmed, or split into
lines and joined again. Blanks at the ends and line feeds in between neither bring a pair of other
characters nor take one away.
-/

namespace CStruct

/-! ## Pairs of characters -/

/-- A pair of characters in two texts in a row stands in one of them or where they meet. -/
theorem pair_infix_append_iff {a b : Char} {cs ds : List Char} : [a, b] <:+: cs ++ ds ↔
    [a, b] <:+: cs ∨ [a, b] <:+: ds ∨ cs.getLast? = some a ∧ ds.head? = some b := by
  rw [List.infix_append_iff]
  constructor
  · rintro (h | h | ⟨u, v, heq, hu, hv⟩)
    · exact .inl h
    · exact .inr (.inl h)
    · -- the pair is split before, between or behind its characters
      cases u with
      | nil => exact .inr (.inl (heq ▸ hv.isInfix))
      | cons c u =>
        rw [List.cons_append, List.cons.injEq] at heq
        obtain ⟨rfl, heq⟩ := heq
        cases u with
        | nil =>
          rw [List.nil_append] at heq
          obtain ⟨cs, rfl⟩ := hu
          obtain ⟨ds, rfl⟩ := heq ▸ hv
          exact .inr (.inr ⟨List.getLast?_concat, rfl⟩)
        | cons d u =>
          rw [List.cons_append, List.cons.injEq] at heq
          obtain ⟨rfl, heq⟩ := heq
          rw [(List.append_eq_nil_iff.1 heq.symm).1] at hu
          exact .inl hu.isInfix
  · rintro (h | h | ⟨hlast, hhead⟩)
    · exact .inl h
    · exact .inr (.inl h)
    · obtain ⟨cs, rfl⟩ := List.getLast?_eq_some_iff.1 hlast
      obtain ⟨ds, rfl⟩ := List.head?_eq_some_iff.1 hhead
      exact .inr (.inr ⟨[a], [b], rfl, List.suffix_append cs [a], List.prefix_append [b] ds⟩)

theorem not_pair_infix_nil {a b : Char} : ¬[a, b] <:+: [] := fun h =>
  List.cons_ne_nil a [b] (List.infix_nil.1 h)

/-- An `a` at the end of one of the texts meets a `b` at the start of a later one, with nothing
between them. -/
def Meets (a b : Char) (texts : List (List Char)) : Prop :=
  ∃ before text between text' after, texts = before ++ text :: (between ++ text' :: after) ∧
    text.getLast? = some a ∧ (∀ t ∈ between, t = []) ∧ text'.head? = some b

theorem not_meets_nil {a b : Char} : ¬Meets a b [] := by
  rintro ⟨before, text, between, text', after, heq, -⟩
  exact List.append_ne_nil_of_right_ne_nil before (List.cons_ne_nil _ _) heq.symm

theorem meets_cons_iff {a b : Char} {text : List Char} {texts : List (List Char)} :
    Meets a b (text :: texts) ↔
      text.getLast? = some a ∧ texts.flatten.head? = some b ∨ Meets a b texts := by
  rw [List.head?_flatten, List.findSome?_eq_some_iff]
  constructor
  · rintro ⟨before, t, between, t', after, heq, hlast, hnil, hhead⟩
    cases before with
    | nil =>
      obtain ⟨rfl, rfl⟩ := List.cons.inj heq
      exact .inl ⟨hlast, between, t', after, rfl, hhead,
        fun u hu => List.head?_eq_none_iff.2 (hnil u hu)⟩
    | cons u before =>
      obtain ⟨rfl, rfl⟩ := List.cons.inj heq
      exact .inr ⟨before, t, between, t', after, rfl, hlast, hnil, hhead⟩
  · rintro (⟨hlast, between, t', after, rfl, hhead, hnil⟩ |
      ⟨before, t, between, t', after, rfl, h⟩)
    · exact ⟨[], text, between, t', after, rfl, hlast,
        fun u hu => List.head?_eq_none_iff.1 (hnil u hu), hhead⟩
    · exact ⟨text :: before, t, between, t', after, rfl, h⟩

/-- A pair of characters in several texts in a row stands in one of them or where two meet. -/
theorem pair_infix_flatten_iff {a b : Char} {texts : List (List Char)} :
    [a, b] <:+: texts.flatten ↔ (∃ text ∈ texts, [a, b] <:+: text) ∨ Meets a b texts := by
  induction texts with
  | nil =>
    refine iff_of_false not_pair_infix_nil ?_
    rintro (⟨_, hmem, -⟩ | hmeets)
    · cases hmem
    · exact not_meets_nil hmeets
  | cons text texts ih =>
    rw [List.flatten_cons, pair_infix_append_iff, ih, meets_cons_iff, List.exists_mem_cons_iff,
      or_assoc, or_assoc, or_comm (a := Meets a b texts)]

namespace Text

/-! ## Trimming -/

/-- What is trimmed are the blanks at the ends. -/
theorem exists_trim (cs : List Char) : ∃ u v, cs = u ++ (trim cs ++ v) ∧
    (∀ c ∈ u, isBlank c = true) ∧ ∀ c ∈ v, isBlank c = true := by
  refine ⟨cs.takeWhile isBlank, ((cs.dropWhile isBlank).reverse.takeWhile isBlank).reverse, ?_,
    fun c hc => List.mem_takeWhile_imp hc, fun c hc => List.mem_takeWhile_imp (List.mem_reverse.1 hc)⟩
  rw [trim, trimEnd, ← List.reverse_append, List.takeWhile_append_dropWhile, List.reverse_reverse,
    List.takeWhile_append_dropWhile]

theorem dropWhile_trim (cs : List Char) : (trim cs).dropWhile isBlank = trim cs := by
  rw [List.dropWhile_eq_self_iff]
  intro hpos hblank
  obtain ⟨c, ds, hds⟩ := List.exists_cons_of_length_pos hpos
  have hprefix : c :: ds <+: cs.dropWhile isBlank := hds ▸ trimEnd_isPrefix _
  obtain ⟨rest, hrest⟩ := hprefix
  have hhead := List.head?_dropWhile_not isBlank cs
  rw [← hrest] at hhead
  simp only [hds, List.getElem_cons_zero] at hblank
  exact absurd (hblank.symm.trans hhead) Bool.noConfusion

theorem trim_trim (cs : List Char) : trim (trim cs) = trim cs := by
  rw [trim, dropWhile_trim, trim, trimEnd, trimEnd, List.reverse_reverse,
    List.dropWhile_idempotent]

theorem length_trim_le (cs : List Char) : (trim cs).length ≤ cs.length :=
  (trimEnd_isPrefix _).length_le.trans (List.dropWhile_suffix isBlank).length_le

/-- Trimming leaves all pairs of characters that are no blanks. -/
theorem pair_infix_trim_iff {a b : Char} (ha : isBlank a = false) (hb : isBlank b = false)
    (cs : List Char) : [a, b] <:+: trim cs ↔ [a, b] <:+: cs := by
  obtain ⟨u, v, heq, hu, hv⟩ := exists_trim cs
  have hnot {t : List Char} (ht : ∀ c ∈ t, isBlank c = true) : a ∉ t ∧ b ∉ t :=
    ⟨fun h => Bool.false_ne_true (ha ▸ ht a h), fun h => Bool.false_ne_true (hb ▸ ht b h)⟩
  have hpair {t : List Char} (ht : ∀ c ∈ t, isBlank c = true) : ¬[a, b] <:+: t :=
    fun h => (hnot ht).1 (h.mem List.mem_cons_self)
  nth_rewrite 2 [heq]
  rw [pair_infix_append_iff, pair_infix_append_iff]
  constructor
  · exact fun h => .inr (.inl (.inl h))
  · rintro (h | (h | h | ⟨-, h⟩) | ⟨h, -⟩)
    · exact absurd h (hpair hu)
    · exact h
    · exact absurd h (hpair hv)
    · exact absurd (List.mem_of_head? h) (hnot hv).2
    · exact absurd (List.mem_of_getLast? h) (hnot hu).1

/-! ## Lines -/

theorem prefix_of_head_lines {cs l : List Char} (h : l ∈ (lines cs).head?) : l <+: cs := by
  fun_induction lines cs generalizing l with
  | case1 => cases h
  | case2 cs ih | case3 cs ih => exact Option.mem_some.1 h ▸ List.nil_prefix
  | case4 c cs _ _ hl ih => exact Option.mem_some.1 h ▸ List.prefix_append [c] cs
  | case5 c cs _ _ l' ls hl ih =>
    rw [hl] at ih
    exact Option.mem_some.1 h ▸ List.cons_prefix_cons.2 ⟨rfl, ih rfl⟩

/-- A line is a stretch of the text. -/
theorem infix_of_mem_lines {cs l : List Char} (h : l ∈ lines cs) : l <:+: cs := by
  fun_induction lines cs generalizing l with
  | case1 => cases h
  | case2 cs ih =>
    rcases List.mem_cons.1 h with rfl | h
    · exact List.nil_infix
    · exact (ih h).trans (List.suffix_cons _ cs).isInfix
  | case3 cs ih =>
    rcases List.mem_cons.1 h with rfl | h
    · exact List.nil_infix
    · exact (ih h).trans (List.suffix_append ['\r', '\n'] cs).isInfix
  | case4 c cs _ _ hl ih => exact List.mem_singleton.1 h ▸ (List.prefix_append [c] cs).isInfix
  | case5 c cs _ _ l' ls hl ih =>
    rcases List.mem_cons.1 h with rfl | h
    · have hhead : l' ∈ (lines cs).head? := hl ▸ rfl
      exact (List.cons_prefix_cons.2 ⟨rfl, prefix_of_head_lines hhead⟩).isInfix
    · exact (ih (hl ▸ List.mem_cons_of_mem l' h)).trans (List.suffix_cons c cs).isInfix

/-- Joining lines brings no pair of characters that are no line feeds. -/
theorem pair_infix_intercalate {a b : Char} (ha : a ≠ '\n') (hb : b ≠ '\n') {ls : List (List Char)}
    (h : [a, b] <:+: ['\n'].intercalate ls) : ∃ l ∈ ls, [a, b] <:+: l := by
  induction ls with
  | nil => exact absurd h not_pair_infix_nil
  | cons l ls ih =>
    cases ls with
    | nil =>
      rw [List.intercalate_singleton] at h
      exact ⟨l, List.mem_cons_self, h⟩
    | cons l' ls =>
      rw [List.intercalate_cons_cons, List.append_assoc, pair_infix_append_iff,
        pair_infix_append_iff] at h
      rcases h with h | (h | h | ⟨hlast, -⟩) | ⟨-, hhead⟩
      · exact ⟨l, List.mem_cons_self, h⟩
      · exact absurd (List.mem_singleton.1 (h.mem List.mem_cons_self)) ha
      · obtain ⟨t, ht, hpair⟩ := ih h
        exact ⟨t, List.mem_cons_of_mem l ht, hpair⟩
      · exact absurd (Option.some.inj hlast).symm ha
      · exact absurd (Option.some.inj hhead).symm hb

end Text

end CStruct
