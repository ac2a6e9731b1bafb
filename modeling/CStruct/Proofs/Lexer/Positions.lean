import CStruct.Text.Position
import Mathlib.Data.List.DropRight

/-!
# Offsets and positions

An offset counts the characters of a text that lie before a place in it. The position of the place
is read off those characters: so many line feeds, and so many characters since the last of them. It
moves forward with every character, so it tells the places of a text apart, and they are in the same
order by offset and by position.
-/

namespace CStruct

namespace Position

/-- The position that has `o` characters of the text before it. -/
def ofOffset (cs : List Char) (o : Nat) : Position where
  line := (cs.take o).count '\n'
  character := ((cs.take o).rtakeWhile (· != '\n')).length

variable {cs : List Char}

theorem ofOffset_succ {o : Nat} (h : o < cs.length) :
    ofOffset cs (o + 1) = (ofOffset cs o).next cs[o] := by
  have htake : cs.take (o + 1) = cs.take o ++ [cs[o]] := List.take_succ_eq_append_getElem h
  unfold ofOffset next
  rw [htake, List.count_append, List.count_singleton]
  by_cases hfeed : cs[o] = '\n'
  · rw [List.rtakeWhile_concat_neg _ _ _ (by simp [hfeed])]
    simp [hfeed]
  · rw [List.rtakeWhile_concat_pos _ _ _ (by simp [hfeed])]
    simp [hfeed]

/-- Reading on from a place leads to the position of the place where it ends. -/
theorem after_ofOffset {o o' : Nat} (hle : o ≤ o') (hle' : o' ≤ cs.length) :
    (ofOffset cs o).after ((cs.take o').drop o) = ofOffset cs o' := by
  induction o', hle using Nat.le_induction with
  | base => rw [List.drop_eq_nil_of_le (List.length_take_le o cs), after_nil]
  | succ o' hle ih =>
    rw [List.take_succ_eq_append_getElem hle',
      List.drop_append_of_le_length (by rw [List.length_take]; omega), after_append,
      ih (Nat.le_of_succ_le hle'), ofOffset_succ hle', after_cons, after_nil]

theorem ofOffset_lt {o o' : Nat} (hlt : o < o') (hle : o' ≤ cs.length) :
    ofOffset cs o < ofOffset cs o' := by
  rw [← after_ofOffset (Nat.le_of_lt hlt) hle]
  apply lt_after
  intro hnil
  have hlength := congrArg List.length hnil
  rw [List.length_drop, List.length_take, List.length_nil] at hlength
  omega

theorem ofOffset_le {o o' : Nat} (hle : o ≤ o') (hle' : o' ≤ cs.length) :
    ofOffset cs o ≤ ofOffset cs o' := by
  rcases Nat.lt_or_eq_of_le hle with hlt | rfl
  · exact le_of_lt (ofOffset_lt hlt hle')
  · exact le_refl _

/-- No two places of a text are at the same position. -/
theorem ofOffset_injective {o o' : Nat} (ho : o ≤ cs.length) (ho' : o' ≤ cs.length)
    (heq : ofOffset cs o = ofOffset cs o') : o = o' := by
  rcases Nat.lt_trichotomy o o' with hlt | hsame | hlt
  · exact absurd (heq ▸ ofOffset_lt hlt ho') (lt_irrefl _)
  · exact hsame
  · exact absurd (heq ▸ ofOffset_lt hlt ho) (lt_irrefl _)

end Position

end CStruct
