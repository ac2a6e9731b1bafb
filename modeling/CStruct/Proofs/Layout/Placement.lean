import CStruct.Proofs.Layout.Exact
import Mathlib.Data.List.Chain

/-!
# Members have places of their own

In a layout, each member starts at the first offset behind the member before it that its alignment
allows. So members do not overlap, and no more bytes are left free than alignments call for. The
size of a struct is a multiple of its alignment, which every member's alignment divides: this keeps
the members of all structs in an array aligned. The main statement is `tight_of_ofFields?`.
-/

namespace CStruct

/-! ## Alignments -/

/-- Of two alignments, the stricter one is a multiple of the other. -/
theorem dvd_of_isPowerOfTwo {a b : Nat} (ha : a.isPowerOfTwo) (hb : b.isPowerOfTwo) (h : a ≤ b) :
    a ∣ b := by
  obtain ⟨i, rfl⟩ := ha
  obtain ⟨j, rfl⟩ := hb
  exact Nat.pow_dvd_pow 2 ((Nat.pow_le_pow_iff_right (by decide)).1 h)

theorem PrimitiveType.isPowerOfTwo_alignment (d : DataModel) (t : PrimitiveType) :
    (t.alignment d).isPowerOfTwo := by
  have hcases : t.alignment d = 2 ^ 0 ∨ t.alignment d = 2 ^ 1 ∨ t.alignment d = 2 ^ 2 ∨
      t.alignment d = 2 ^ 3 := by
    cases d <;> cases t <;> decide
  rcases hcases with h | h | h | h <;> exact ⟨_, h⟩

namespace Layout

variable {o : LayoutOptions} {fs : List Field}

theorem isPowerOfTwo_alignment (o : LayoutOptions) (f : Field) : (f.alignment o).isPowerOfTwo := by
  unfold Field.alignment
  split
  · exact PrimitiveType.isPowerOfTwo_alignment ..
  · exact ⟨0, rfl⟩

/-- The strictest alignment is that of a member, or 1. -/
theorem strictest_mem (o : LayoutOptions) (fs : List Field) :
    strictest o fs = 1 ∨ ∃ f ∈ fs, f.alignment o = strictest o fs := by
  have hmem (a : Nat) : fs.foldl (fun a f => max a (f.alignment o)) a = a ∨
      ∃ f ∈ fs, f.alignment o = fs.foldl (fun a f => max a (f.alignment o)) a := by
    induction fs generalizing a with
    | nil => exact .inl rfl
    | cons f fs ih =>
      rw [List.foldl_cons]
      rcases ih (max a (f.alignment o)) with h | ⟨g, hg, heq⟩
      · rw [h]
        rcases Nat.le_total a (f.alignment o) with hle | hle
        · exact .inr ⟨f, List.mem_cons_self, (Nat.max_eq_right hle).symm⟩
        · exact .inl (Nat.max_eq_left hle)
      · exact .inr ⟨g, List.mem_cons_of_mem f hg, heq⟩
  exact hmem 1

theorem isPowerOfTwo_strictest (o : LayoutOptions) (fs : List Field) :
    (strictest o fs).isPowerOfTwo := by
  rcases strictest_mem o fs with h | ⟨f, -, h⟩
  · exact ⟨0, h⟩
  · rw [← h]
    exact isPowerOfTwo_alignment o f

theorem alignment_le_strictest {f : Field} (hf : f ∈ fs) : f.alignment o ≤ strictest o fs := by
  have hle (a : Nat) : a ≤ fs.foldl (fun a f => max a (f.alignment o)) a ∧
      ∀ f ∈ fs, f.alignment o ≤ fs.foldl (fun a f => max a (f.alignment o)) a := by
    clear hf
    induction fs generalizing a with
    | nil => exact ⟨Nat.le_refl a, nofun⟩
    | cons g fs ih =>
      rw [List.foldl_cons]
      obtain ⟨hstart, hrest⟩ := ih (max a (g.alignment o))
      refine ⟨by omega, List.forall_mem_cons.2 ⟨by omega, hrest⟩⟩
  exact (hle 1).2 f hf

theorem alignment_dvd_strictest {f : Field} (hf : f ∈ fs) : f.alignment o ∣ strictest o fs :=
  dvd_of_isPowerOfTwo (isPowerOfTwo_alignment o f) (isPowerOfTwo_strictest o fs)
    (alignment_le_strictest hf)

/-! ## Places -/

/-- The members stand one behind another from `offset` on, each at the first offset that its
alignment allows. The last of them ends at `stop`. -/
inductive Placed (o : LayoutOptions) : Nat → List Member → Nat → Prop
  | nil (offset : Nat) : Placed o offset [] offset
  | cons {offset stop : Nat} {m : Member} {ms : List Member}
      (hoffset : m.offset = alignUp offset (m.alignment o)) (hrest : Placed o m.stop ms stop) :
      Placed o offset (m :: ms) stop

theorem placed_of_place {offset stop : Nat} {ms : List Member}
    (h : place o offset fs = some (ms, stop)) : Placed o offset ms stop := by
  induction fs generalizing offset ms stop with
  | nil =>
    cases h
    exact .nil offset
  | cons f fs ih =>
    rw [place_cons] at h
    split at h
    · obtain ⟨⟨ms', stop'⟩, hrest, heq⟩ := Option.map_eq_some_iff.1 h
      cases heq
      exact .cons rfl (ih hrest)
    · cases h

/-- The parts of a layout. -/
theorem placed_of_ofFields? {l : Layout} (h : ofFields? o fs = some l) :
    l.members.map Member.toField = fs ∧ l.alignment = strictest o fs ∧
      ∃ stop, Placed o 0 l.members stop ∧ l.size = alignUp stop (strictest o fs) := by
  rcases ofFields?_cases o fs with ⟨l', hl', hfields, -, halignment, -⟩ | ⟨hnone, -⟩
  · cases h.symm.trans hl'
    refine ⟨hfields, halignment, ?_⟩
    obtain ⟨⟨ms, stop⟩, hplace, hrest⟩ := Option.bind_eq_some_iff.1 h
    obtain ⟨size, hsize, heq⟩ := Option.bind_eq_some_iff.1 hrest
    cases heq
    exact ⟨stop, placed_of_place hplace, (fit_eq_some_iff.1 hsize).2.symm⟩
  · rw [hnone] at h
    cases h

namespace Placed

variable {offset stop : Nat} {ms : List Member} (h : Placed o offset ms stop)
include h

theorem le_stop : offset ≤ stop := by
  induction h with
  | nil => exact Nat.le_refl _
  | @cons offset stop m ms hoffset _ ih =>
    have halign := le_alignUp offset (m.alignment_pos o)
    unfold Member.stop at ih
    omega

theorem aligned : ∀ m ∈ ms, m.alignment o ∣ m.offset := by
  induction h with
  | nil => nofun
  | cons hoffset _ ih =>
    refine List.forall_mem_cons.2 ⟨?_, ih⟩
    rw [hoffset]
    exact dvd_alignUp ..

/-- A member starts at or behind the offset from which on members are placed, and ends at or before
the one at which the last of them ends. -/
theorem within : ∀ m ∈ ms, offset ≤ m.offset ∧ m.stop ≤ stop := by
  induction h with
  | nil => nofun
  | @cons offset stop m ms hoffset hrest ih =>
    have halign := le_alignUp offset (m.alignment_pos o)
    have hstop : m.offset ≤ m.stop := Nat.le_add_right ..
    refine List.forall_mem_cons.2 ⟨⟨by omega, hrest.le_stop⟩, fun m' hm' => ?_⟩
    obtain ⟨hle, hstop'⟩ := ih m' hm'
    exact ⟨by omega, hstop'⟩

theorem ordered : ms.Pairwise fun m m' => m.stop ≤ m'.offset := by
  induction h with
  | nil => exact .nil
  | cons _ hrest ih => exact List.pairwise_cons.2 ⟨fun m' hm' => (hrest.within m' hm').1, ih⟩

/-- There is less room before the first member than its alignment. -/
theorem first : ∀ m ∈ ms.head?, offset ≤ m.offset ∧ m.offset < offset + m.alignment o := by
  cases h with
  | nil => nofun
  | @cons _ _ m _ hoffset _ =>
    rintro _ ⟨⟩
    rw [hoffset]
    exact ⟨le_alignUp offset (m.alignment_pos o), alignUp_lt offset (m.alignment_pos o)⟩

/-- There is less room before a member than its alignment. -/
theorem dense :
    ms.IsChain fun m m' => m.stop ≤ m'.offset ∧ m'.offset < m.stop + m'.alignment o := by
  induction h with
  | nil => exact .nil
  | cons _ hrest ih => exact List.isChain_cons.2 ⟨hrest.first, ih⟩

theorem stop_eq : stop = ms.getLast?.elim offset Member.stop := by
  induction h with
  | nil => rfl
  | @cons _ _ m ms _ hrest ih =>
    cases ms with
    | nil => exact ih
    | cons m' ms =>
      rw [List.getLast?_cons_cons, ih, List.getLast?_cons]
      rfl

end Placed

/-! ## Layouts -/

/-- The offset behind the last member. -/
def stop (l : Layout) : Nat := l.members.getLast?.elim 0 Member.stop

/-- The layout holds the members in their order, keeps them apart and aligned, and leaves no more
room free than that takes. -/
structure Tight (o : LayoutOptions) (fs : List Field) (l : Layout) : Prop where
  fields : l.members.map Member.toField = fs
  first : ∀ m ∈ l.members.head?, m.offset = 0
  aligned : ∀ m ∈ l.members, m.alignment o ∣ m.offset
  dense : l.members.IsChain fun m m' => m.stop ≤ m'.offset ∧ m'.offset < m.stop + m'.alignment o
  /-- Without members, a struct may stand anywhere. -/
  free : l.members = [] → l.alignment = 1
  attained : l.members ≠ [] → ∃ m ∈ l.members, m.alignment o = l.alignment
  alignment : ∀ m ∈ l.members, m.alignment o ≤ l.alignment ∧ m.alignment o ∣ l.alignment
  size : l.alignment ∣ l.size ∧ l.stop ≤ l.size ∧ l.size < l.stop + l.alignment
  disjoint : l.members.Pairwise fun m m' => m.stop ≤ m'.offset
  inside : ∀ m ∈ l.members, m.stop ≤ l.size
  /-- Structs in an array that starts at an aligned address keep their members aligned. -/
  elements : ∀ m ∈ l.members, ∀ address, l.alignment ∣ address →
    ∀ number, m.alignment o ∣ address + number * l.size + m.offset

/-- Members that fit into the address space have a tight layout, under any options. -/
theorem tight_of_ofFields? {l : Layout} (h : ofFields? o fs = some l) : l.Tight o fs := by
  obtain ⟨hfields, halignment, stop, hplaced, hsize⟩ := placed_of_ofFields? h
  have hstop : l.stop = stop := hplaced.stop_eq.symm
  have hpos := strictest_pos o fs
  have hmem (m : Member) (hm : m ∈ l.members) : m.toField ∈ fs := by
    rw [← hfields]
    exact List.mem_map_of_mem hm
  have hdvd (m : Member) (hm : m ∈ l.members) : m.alignment o ∣ l.alignment := by
    rw [halignment]
    exact alignment_dvd_strictest (hmem m hm)
  have hmultiple : l.alignment ∣ l.size := by
    rw [halignment, hsize]
    exact dvd_alignUp ..
  have hle : l.stop ≤ l.size := by
    rw [hstop, hsize]
    exact le_alignUp stop hpos
  exact
    { fields := hfields
      -- an offset below the alignment that is a multiple of it is zero
      first := fun m hm => by
        obtain ⟨-, hlt⟩ := hplaced.first m hm
        have haligned := hplaced.aligned m (List.mem_of_mem_head? hm)
        exact Nat.eq_zero_of_dvd_of_lt haligned (by omega)
      aligned := hplaced.aligned
      dense := hplaced.dense
      free := fun hnil => by
        rw [hnil] at hfields
        rw [halignment, ← hfields]
        rfl
      attained := fun hne => by
        obtain ⟨m, hm⟩ := List.exists_mem_of_ne_nil _ hne
        rw [halignment]
        rcases strictest_mem o fs with hone | ⟨f, hf, heq⟩
        -- the alignment is one, so that any member attains it
        · have hle := alignment_le_strictest (o := o) (hmem m hm)
          have hmpos := m.alignment_pos o
          exact ⟨m, hm, by omega⟩
        · rw [← hfields] at hf
          obtain ⟨m', hm', rfl⟩ := List.mem_map.1 hf
          exact ⟨m', hm', heq⟩
      alignment := fun m hm => by
        refine ⟨?_, hdvd m hm⟩
        rw [halignment]
        exact alignment_le_strictest (hmem m hm)
      size := by
        refine ⟨hmultiple, hle, ?_⟩
        rw [hstop, hsize, halignment]
        exact alignUp_lt stop hpos
      disjoint := hplaced.ordered
      inside := fun m hm => Nat.le_trans (hplaced.within m hm).2 (hstop ▸ hle)
      elements := fun m hm address haddress number => by
        have haddress := Nat.dvd_trans (hdvd m hm) haddress
        have hnumber := Nat.dvd_mul_left_of_dvd (Nat.dvd_trans (hdvd m hm) hmultiple) number
        exact Nat.dvd_add (Nat.dvd_add haddress hnumber) (hplaced.aligned m hm) }

/-- Members of four sizes. -/
def mixedFields : List Field :=
  [{ name := "a", type := .char, size := 1 }, { name := "b", type := .int, size := 4 },
    { name := "c", type := .short, size := 2 }, { name := "d", type := .double, size := 8 },
    { name := "e", type := .char, arrayLength? := some 3, size := 3 }]

theorem tight_mixedFields : ∃ l, ofFields? {} mixedFields = some l ∧
    l.members.map (·.offset) = [0, 4, 8, 16, 24] ∧ l.size = 32 ∧ l.alignment = 8 ∧
    l.Tight {} mixedFields := by
  cases hl : ofFields? {} mixedFields with
  | none => exact absurd hl (by decide)
  | some l =>
    have hparts : (ofFields? {} mixedFields).map (fun l => (l.members.map (·.offset), l.size,
        l.alignment)) = some ([0, 4, 8, 16, 24], 32, 8) := by
      decide
    simp only [hl, Option.map_some, Option.some.injEq, Prod.mk.injEq] at hparts
    obtain ⟨hoffsets, hsize, halignment⟩ := hparts
    exact ⟨l, rfl, hoffsets, hsize, halignment, tight_of_ofFields? hl⟩

end Layout

end CStruct
