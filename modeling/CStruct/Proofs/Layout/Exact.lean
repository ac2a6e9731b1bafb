import CStruct.Layout.Struct

/-!
# Layouts without a limit

What the size of a struct would be if addresses had no limit. Members are placed as they are in a
layout, and there is a layout exactly when the size is below the limit: no offset before the end of
the struct can be out of bounds when the size is not.
-/

namespace CStruct

/-- What a member takes of a struct: how many bytes, and where they may start. -/
structure Extent where
  size : Nat
  alignment : Nat
  deriving DecidableEq

def Field.extent (o : LayoutOptions) (f : Field) : Extent := ⟨f.size, f.alignment o⟩

namespace Layout

/-- The offset behind the last one of the members that are placed from `offset` on. -/
def exactStop (offset : Nat) : List Extent → Nat
  | [] => offset
  | e :: es => exactStop (alignUp offset e.alignment + e.size) es

def exactAlignment (es : List Extent) : Nat := es.foldl (fun a e => max a e.alignment) 1

/-- The size of a struct, filled up to a multiple of its alignment. -/
def exactSize (es : List Extent) : Nat := alignUp (exactStop 0 es) (exactAlignment es)

variable {o : LayoutOptions} {fs : List Field} {offset : Nat}

theorem exactAlignment_map (o : LayoutOptions) (fs : List Field) :
    exactAlignment (fs.map (Field.extent o)) = strictest o fs := by
  unfold exactAlignment strictest
  rw [List.foldl_map]
  rfl

theorem strictest_pos (o : LayoutOptions) (fs : List Field) : 0 < strictest o fs := by
  have hle (a : Nat) (ha : 0 < a) : 0 < fs.foldl (fun a f => max a (f.alignment o)) a := by
    induction fs generalizing a with
    | nil => exact ha
    | cons f fs ih => exact ih (max a (f.alignment o)) (by omega)
  exact hle 1 Nat.one_pos

/-- Members are placed one behind another. -/
theorem le_exactStop (o : LayoutOptions) (fs : List Field) (offset : Nat) :
    offset ≤ exactStop offset (fs.map (Field.extent o)) := by
  induction fs generalizing offset with
  | nil => exact Nat.le_refl offset
  | cons f fs ih =>
    have halign := le_alignUp offset (f.alignment_pos o)
    have hrest := ih (alignUp offset (f.alignment o) + f.size)
    show offset ≤ exactStop (alignUp offset (f.alignment o) + f.size) (fs.map (Field.extent o))
    omega

theorem place_cons {f : Field} :
    place o offset (f :: fs) =
      if alignUp offset (f.alignment o) + f.size < addressLimit then
        (place o (alignUp offset (f.alignment o) + f.size) fs).map fun (members, stop) =>
          ({ f with offset := alignUp offset (f.alignment o) } :: members, stop)
      else none := by
  rw [place]
  by_cases hstart : alignUp offset (f.alignment o) < addressLimit
  · rw [(fit_eq_some_iff (m := alignUp offset (f.alignment o))).2 ⟨hstart, rfl⟩]
    by_cases hstop : alignUp offset (f.alignment o) + f.size < addressLimit
    · rw [if_pos hstop]
      simp only [Option.bind_eq_bind, Option.bind_some, fit, if_pos hstop]
      cases place o (alignUp offset (f.alignment o) + f.size) fs <;> rfl
    · rw [if_neg hstop]
      simp only [Option.bind_eq_bind, Option.bind_some, fit, if_neg hstop, Option.bind_none]
  · have hstop : ¬alignUp offset (f.alignment o) + f.size < addressLimit := by omega
    rw [if_neg hstop, fit, if_neg hstart]
    rfl

/-- Members are placed where they would be without a limit, or the last of them ends beyond it. -/
theorem place_cases (hoffset : offset < addressLimit) :
    (∃ members, place o offset fs =
        some (members, exactStop offset (fs.map (Field.extent o))) ∧
      members.map Member.toField = fs ∧
      exactStop offset (fs.map (Field.extent o)) < addressLimit) ∨
    place o offset fs = none ∧ addressLimit ≤ exactStop offset (fs.map (Field.extent o)) := by
  induction fs generalizing offset with
  | nil => exact .inl ⟨[], rfl, rfl, hoffset⟩
  | cons f fs ih =>
    rw [place_cons]
    show (∃ members, _ = some (members, exactStop (alignUp offset (f.alignment o) + f.size)
      (fs.map (Field.extent o))) ∧ _ ∧ _) ∨ _ ∧ addressLimit ≤
        exactStop (alignUp offset (f.alignment o) + f.size) (fs.map (Field.extent o))
    by_cases hstop : alignUp offset (f.alignment o) + f.size < addressLimit
    · rw [if_pos hstop]
      rcases ih hstop with ⟨members, hplace, hmembers, hlt⟩ | ⟨hplace, hle⟩
      · refine .inl ⟨_ :: members, by rw [hplace]; rfl, ?_, hlt⟩
        rw [List.map_cons, hmembers]
      · exact .inr ⟨by rw [hplace]; rfl, hle⟩
    · have hrest := le_exactStop o fs (alignUp offset (f.alignment o) + f.size)
      exact .inr ⟨if_neg hstop, by omega⟩

/-- There is a layout if and only if the size without a limit is below the limit, and then that is
its size. -/
theorem ofFields?_cases (o : LayoutOptions) (fs : List Field) :
    (∃ l, ofFields? o fs = some l ∧ l.members.map Member.toField = fs ∧
      l.size = exactSize (fs.map (Field.extent o)) ∧ l.alignment = strictest o fs ∧
      exactSize (fs.map (Field.extent o)) < addressLimit) ∨
    ofFields? o fs = none ∧ addressLimit ≤ exactSize (fs.map (Field.extent o)) := by
  have hsize : exactSize (fs.map (Field.extent o)) =
      alignUp (exactStop 0 (fs.map (Field.extent o))) (strictest o fs) := by
    rw [exactSize, exactAlignment_map]
  unfold ofFields?
  have hzero : 0 < addressLimit := by decide
  rcases @place_cases o fs 0 hzero with ⟨members, hplace, hmembers, -⟩ | ⟨hplace, hle⟩
  · rw [hplace, hsize]
    simp only [Option.bind_eq_bind, Option.bind_some]
    by_cases hlt : alignUp (exactStop 0 (fs.map (Field.extent o))) (strictest o fs) < addressLimit
    · rw [fit, if_pos hlt]
      exact .inl ⟨_, rfl, hmembers, rfl, rfl, hlt⟩
    · rw [fit, if_neg hlt]
      exact .inr ⟨rfl, Nat.le_of_not_lt hlt⟩
  · rw [hplace, hsize]
    have halign := le_alignUp (exactStop 0 (fs.map (Field.extent o))) (strictest_pos o fs)
    exact .inr ⟨rfl, by omega⟩

end Layout

end CStruct
