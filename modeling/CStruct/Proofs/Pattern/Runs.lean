import CStruct.Proofs.Pattern.Preference
import Mathlib.Data.List.Basic

/-!
# Characters, texts and runs of characters

Where patterns for characters, for certain texts and for runs of characters of a set end. A run is
as long as possible first, and one character shorter with every later choice.
-/

namespace CStruct

namespace Cursor

theorem pass_eq_skip {c : Cursor} {ch : Char} {rest : List Char} (h : c.rest = ch :: rest) :
    c.pass ch rest = c.skip 1 := by
  rw [skip, skip, next, h]

/-- The character before a cursor that has passed some text is the last one of that text. -/
theorem before_skip {n : Nat} {c : Cursor} (hn : 0 < n) (h : n ≤ c.rest.length) :
    (c.skip n).before = (c.rest.take n).getLast? := by
  induction n generalizing c with
  | zero => omega
  | succ n ih =>
    obtain ⟨offset, before, rest⟩ := c
    cases rest with
    | nil => simp at h
    | cons ch rest =>
      rw [List.take_succ_cons, skip]
      cases n with
      | zero => rfl
      | succ n =>
        rw [ih (Nat.succ_pos n) (by simpa [next, pass] using h)]
        cases rest with
        | nil => simp at h
        | cons ch' rest => exact (List.getLast?_cons_cons).symm

end Cursor

namespace Pattern

/-! ## Sequences -/

theorem ends_char (set : CharSet) (c : Cursor) :
    (char set).ends c = if c.rest.head?.any set.holds then [c.skip 1] else [] := by
  rw [ends]
  split
  · rename_i h
    rw [h]
    rfl
  · rename_i ch rest h
    rw [Cursor.pass_eq_skip h, h]
    rfl

theorem ends_andThen (p q : Pattern) (c : Cursor) :
    (p.andThen q).ends c = (p.ends c).flatMap q.ends := by
  induction p generalizing c with
  | empty => simp [andThen, ends]
  | seq p r _ ih =>
    rw [andThen, ends, ends, List.flatMap_assoc]
    exact List.flatMap_congr fun d _ => ih d
  | char | wordBoundary | alt | rep | group =>
    cases q <;> simp [andThen, ends]

theorem ends_concat_nil (c : Cursor) : (concat []).ends c = [c] := rfl

theorem ends_concat_cons (p : Pattern) (ps : List Pattern) (c : Cursor) :
    (concat (p :: ps)).ends c = (p.ends c).flatMap (concat ps).ends :=
  ends_andThen p (concat ps) c

theorem ends_concat_singleton (p : Pattern) (c : Cursor) : (concat [p]).ends c = p.ends c := by
  rw [ends_concat_cons]
  exact List.flatMap_singleton' _

theorem ends_concat_append (ps qs : List Pattern) (c : Cursor) :
    (concat (ps ++ qs)).ends c = ((concat ps).ends c).flatMap (concat qs).ends := by
  induction ps generalizing c with
  | nil => rw [List.nil_append, ends_concat_nil, List.flatMap_singleton]
  | cons p ps ih =>
    rw [List.cons_append, ends_concat_cons, ends_concat_cons, List.flatMap_assoc]
    exact List.flatMap_congr fun d _ => ih d

/-- Certain characters in a row. -/
theorem ends_singles (cs : List Char) (c : Cursor) :
    (concat (cs.map fun ch => char (.single ch))).ends c =
      if cs.isPrefixOf c.rest then [c.skip cs.length] else [] := by
  induction cs generalizing c with
  | nil => rfl
  | cons ch cs ih =>
    rw [List.map_cons, ends_concat_cons, ends_char]
    cases hrest : c.rest with
    | nil => rfl
    | cons ch' rest =>
      rw [List.head?_cons, Option.any_some, CharSet.holds_single, List.isPrefixOf_cons_cons]
      by_cases hch : ch' = ch
      · subst hch
        rw [beq_self_eq_true, if_pos rfl, List.flatMap_singleton, ih, Bool.true_and,
          Cursor.rest_skip, hrest, Cursor.skip_skip, List.length_cons, Nat.add_comm 1]
        rfl
      · rw [beq_eq_false_iff_ne.2 hch, beq_eq_false_iff_ne.2 (Ne.symm hch)]
        rfl

theorem ends_literal (text : String) (c : Cursor) :
    (literal text).ends c = if text.toList.isPrefixOf c.rest then [c.skip text.length] else [] := by
  rw [literal, ends_singles, String.length_toList]

/-- A choice tries its alternatives in order. -/
theorem ends_oneOf (ps : List Pattern) (c : Cursor) :
    (oneOf ps).ends c = ps.flatMap fun p => p.ends c := by
  induction ps with
  | nil =>
    rw [oneOf, ends_char, if_neg]
    · rfl
    · cases c.rest.head? <;> simp
  | cons p ps ih =>
    cases ps with
    | nil => rw [oneOf, List.flatMap_singleton]
    | cons q qs =>
      change p.ends c ++ (oneOf (q :: qs)).ends c = _
      rw [ih]
      rfl

/-! ## Runs -/

theorem canBeEmpty_char {set : CharSet} (h : set.isEmpty = false) :
    (char set).canBeEmpty = false := by
  simp [canBeEmpty, leastLength?, h]

/-- All starts of a run, the longest first. -/
theorem ends_zeroOrMore_char {set : CharSet} (hset : set.isEmpty = false) (c : Cursor) :
    (zeroOrMore (char set)).ends c =
      (List.range ((c.rest.takeWhile set.holds).length + 1)).reverse.map fun n => c.skip n := by
  induction hlen : c.rest.length generalizing c with
  | zero =>
    rw [zeroOrMore, ends_zeroOrMore (canBeEmpty_char hset), if_pos rfl, ends_char,
      List.eq_nil_of_length_eq_zero hlen]
    rfl
  | succ k ih =>
    rw [zeroOrMore, ends_zeroOrMore (canBeEmpty_char hset), if_pos rfl, ends_char, ← zeroOrMore]
    cases hrest : c.rest with
    | nil => rfl
    | cons ch rest =>
      rw [List.head?_cons, Option.any_some, List.takeWhile_cons]
      by_cases hch : set.holds ch = true
      · rw [if_pos hch, if_pos hch, List.flatMap_singleton, ih _ (by simp [hlen]), Cursor.rest_skip,
          hrest, List.drop_one, List.tail_cons, List.length_cons]
        generalize (rest.takeWhile set.holds).length = m
        rw [List.range_succ_eq_map (n := m + 1), List.reverse_cons, List.map_append,
          List.map_reverse, List.map_reverse, List.map_map]
        simp only [Cursor.skip_skip, Nat.add_comm 1]
        rfl
      · rw [if_neg hch, if_neg hch]
        rfl

/-- If nothing that follows fits behind a shorter part of a run, the longest decides. -/
theorem findSome?_zeroOrMore_char {α : Type} {set : CharSet} (hset : set.isEmpty = false)
    {c : Cursor} {f : Cursor → Option α}
    (hf : ∀ n < (c.rest.takeWhile set.holds).length, f (c.skip n) = none) :
    ((zeroOrMore (char set)).ends c).findSome? f =
      f (c.skip (c.rest.takeWhile set.holds).length) := by
  rw [ends_zeroOrMore_char hset, List.range_succ, List.reverse_append, List.reverse_singleton,
    List.singleton_append, List.map_cons, List.findSome?_cons]
  cases hlast : f (c.skip (c.rest.takeWhile set.holds).length) with
  | some r => rfl
  | none =>
    refine List.findSome?_eq_none_iff.2 fun d hd => ?_
    obtain ⟨n, hn, rfl⟩ := List.mem_map.1 hd
    exact hf n (List.mem_range.1 (List.mem_reverse.1 hn))

/-- A run that is not followed by anything is as long as possible. -/
theorem head?_zeroOrMore_char {set : CharSet} (hset : set.isEmpty = false) (c : Cursor) :
    ((zeroOrMore (char set)).ends c).head? =
      some (c.skip (c.rest.takeWhile set.holds).length) := by
  rw [ends_zeroOrMore_char hset, List.range_succ, List.reverse_append]
  rfl

/-- Rounds go on as long as another one fits. -/
theorem head?_zeroOrMore {p : Pattern} (hp : p.canBeEmpty = false) (c : Cursor) :
    ((zeroOrMore p).ends c).head? =
      match (p.ends c).head? with
      | none => some c
      | some d => ((zeroOrMore p).ends d).head? := by
  rw [zeroOrMore, ends_zeroOrMore hp, if_pos rfl, List.head?_append, List.head?_flatMap]
  cases hends : p.ends c with
  | nil => rfl
  | cons d ds =>
    have hsome : ((rep 0 none true p).ends d).head? ≠ none := by
      rw [ends_zeroOrMore hp, if_pos rfl]
      simp
    obtain ⟨e, he⟩ := Option.ne_none_iff_exists'.1 hsome
    rw [List.findSome?_cons, he]
    exact he.symm

end Pattern

end CStruct
