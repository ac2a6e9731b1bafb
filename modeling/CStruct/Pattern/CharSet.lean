import CStruct.Text.Blank

/-!
# Character sets

A `CharSet` is a row of ranges of code points, in order. Ranges that meet become one when sets are
put together, so the same characters make up the same set, however they are listed. `holds_unions`,
`holds_complement` and `holds_negation` say what belongs to a set that is made from others.
-/

namespace CStruct

/-! ## Ranges -/

/-- The code points from `first` up to `stop`, which is not one of them any more. -/
structure CharRange where
  first : Nat
  stop : Nat
  first_lt_stop : first < stop := by decide
  deriving DecidableEq

namespace CharRange

def holds (r : CharRange) (n : Nat) : Bool := r.first ≤ n && n < r.stop

theorem holds_iff {r : CharRange} {n : Nat} : r.holds n = true ↔ r.first ≤ n ∧ n < r.stop := by
  simp [holds]

/-- The smallest range around two others. -/
def hull (r s : CharRange) : CharRange where
  first := min r.first s.first
  stop := max r.stop s.stop
  first_lt_stop := by have := r.first_lt_stop; omega

/-- What belongs to both of two ranges. -/
def meet (r s : CharRange) : List CharRange :=
  if h : max r.first s.first < min r.stop s.stop then [⟨_, _, h⟩] else []

/-- Whether `r` ends before `s` begins. -/
def Before (r s : CharRange) : Prop := r.stop ≤ s.first

/-- Puts a range into a row. It becomes one with those that it meets. -/
def insert (r : CharRange) : List CharRange → List CharRange
  | [] => [r]
  | s :: rs =>
    if r.stop < s.first then r :: s :: rs
    else if s.stop < r.first then s :: insert r rs
    else insert (r.hull s) rs

/-- Where a range begins that is to begin at `n`: no code point from 0xD800 to 0xDFFF is a
character. -/
def firstFrom (n : Nat) : Nat := if n = 0xD800 then 0xE000 else n

/-- Where a range stops that is to stop at `n`. -/
def stopAt (n : Nat) : Nat := if n = 0xE000 then 0xD800 else n

/-- The range of the characters from `start` up to `stop`, unless there are none. -/
def upTo (start stop : Nat) : List CharRange :=
  if h : firstFrom start < stopAt stop then [⟨firstFrom start, stopAt stop, h⟩] else []

/-- What lies between two ranges, of which one ends at `start` and the next begins at `stop`. From
0xD800 up to 0xE000 there is no character. If such a gap is `crossed`, it is taken to run from its
upper end to its lower one, and has the characters on both sides of it. -/
def between (crossed : Bool) (start stop : Nat) : List CharRange :=
  if crossed ∧ start = 0xD800 ∧ stop = 0xE000 then [⟨0xD7FF, 0xE001, by decide⟩]
  else upTo start stop

/-- What lies before, between and behind the ranges of a row, from `start` on. -/
def gaps (crossed : Bool) (start : Nat) : List CharRange → List CharRange
  | [] => upTo start 0x110000
  | r :: rs => between crossed start r.first ++ gaps crossed r.stop rs

/-! ### Order -/

theorem le_first_of_mem_insert {n : Nat} {r : CharRange} {rs : List CharRange} (hr : n ≤ r.first)
    (hrs : ∀ s ∈ rs, n ≤ s.first) : ∀ s ∈ insert r rs, n ≤ s.first := by
  induction rs generalizing r with
  | nil => simpa [insert] using hr
  | cons s rs ih =>
    have hs : n ≤ s.first := hrs s (.head _)
    have hrest : ∀ t ∈ rs, n ≤ t.first := fun t ht => hrs t (.tail _ ht)
    unfold insert
    split
    · simpa [hr, hs] using hrest
    · split
      · simpa [hs] using ih hr hrest
      · exact ih (by simp only [hull]; omega) hrest

theorem pairwise_insert (r : CharRange) {rs : List CharRange} (h : rs.Pairwise Before) :
    (insert r rs).Pairwise Before := by
  induction rs generalizing r with
  | nil => simp [insert]
  | cons s rs ih =>
    obtain ⟨hs, hrs⟩ := List.pairwise_cons.1 h
    unfold insert
    split
    · rename_i hlt
      refine List.pairwise_cons.2 ⟨fun t ht => ?_, h⟩
      rcases List.mem_cons.1 ht with rfl | ht
      · exact Nat.le_of_lt hlt
      · exact Nat.le_trans (Nat.le_of_lt (Nat.lt_trans hlt s.first_lt_stop)) (hs t ht)
    · split
      · rename_i hlt
        exact List.pairwise_cons.2 ⟨le_first_of_mem_insert (Nat.le_of_lt hlt) hs, ih r hrs⟩
      · exact ih _ hrs

/-- A row made from any ranges. -/
theorem pairwise_foldr_insert (rs : List CharRange) : (rs.foldr insert []).Pairwise Before := by
  induction rs with
  | nil => exact .nil
  | cons r rs ih => exact pairwise_insert r ih

theorem bounds_of_mem_upTo {start stop : Nat} {r : CharRange} (h : r ∈ upTo start stop) :
    start ≤ r.first ∧ r.stop ≤ stop := by
  unfold upTo at h
  split at h
  · obtain rfl := List.mem_singleton.1 h
    dsimp only [firstFrom, stopAt]
    split <;> split <;> omega
  · cases h

theorem bounds_of_mem_between {crossed : Bool} {start stop : Nat} {r : CharRange}
    (h : r ∈ between crossed start stop) :
    start ≤ r.first ∧ r.stop ≤ stop ∨
      start = 0xD800 ∧ stop = 0xE000 ∧ r.first = 0xD7FF ∧ r.stop = 0xE001 := by
  unfold between at h
  split at h
  · obtain rfl := List.mem_singleton.1 h
    simp_all
  · exact .inl (bounds_of_mem_upTo h)

theorem first_of_mem_gaps {crossed : Bool} {start : Nat} {rs : List CharRange}
    (hrs : ∀ r ∈ rs, start ≤ r.first) (h : rs.Pairwise Before) :
    ∀ r ∈ gaps crossed start rs, start ≤ r.first ∨ start = 0xD800 ∧ r.first = 0xD7FF := by
  induction rs generalizing start with
  | nil => exact fun r hr => .inl (bounds_of_mem_upTo hr).1
  | cons s rs ih =>
    obtain ⟨hs, h⟩ := List.pairwise_cons.1 h
    intro r hr
    rcases List.mem_append.1 hr with hr | hr
    · have := bounds_of_mem_between hr
      omega
    · have := ih hs h r hr
      have := hrs s (.head _)
      have := s.first_lt_stop
      omega

theorem pairwise_upTo (start stop : Nat) : (upTo start stop).Pairwise Before := by
  unfold upTo
  split <;> simp

theorem pairwise_between (crossed : Bool) (start stop : Nat) :
    (between crossed start stop).Pairwise Before := by
  unfold between
  split
  · simp
  · exact pairwise_upTo _ _

theorem pairwise_gaps {crossed : Bool} {start : Nat} {rs : List CharRange}
    (h : rs.Pairwise Before) : (gaps crossed start rs).Pairwise Before := by
  induction rs generalizing start with
  | nil => exact pairwise_upTo _ _
  | cons s rs ih =>
    obtain ⟨hs, h⟩ := List.pairwise_cons.1 h
    refine List.pairwise_append.2 ⟨pairwise_between _ _ _, ih h, fun r hr t ht => ?_⟩
    have := bounds_of_mem_between hr
    have := first_of_mem_gaps hs h t ht
    have := s.first_lt_stop
    unfold Before
    omega

/-! ### Members -/

theorem any_holds_meet (r s : CharRange) (n : Nat) :
    (r.meet s).any (·.holds n) = (r.holds n && s.holds n) := by
  rw [Bool.eq_iff_iff, Bool.and_eq_true, holds_iff, holds_iff]
  unfold meet
  split
  · simp only [List.any_cons, List.any_nil, Bool.or_false, holds_iff]
    omega
  · simp only [List.any_nil, Bool.false_eq_true, false_iff]
    omega

theorem any_holds_insert (r : CharRange) (rs : List CharRange) (n : Nat) :
    (insert r rs).any (·.holds n) = (r.holds n || rs.any (·.holds n)) := by
  induction rs generalizing r with
  | nil => simp [insert]
  | cons s rs ih =>
    unfold insert
    split
    · simp
    · split
      · simp [ih, Bool.or_left_comm]
      · have hhull : (r.hull s).holds n = (r.holds n || s.holds n) := by
          have := r.first_lt_stop
          have := s.first_lt_stop
          rw [Bool.eq_iff_iff, Bool.or_eq_true, holds_iff, holds_iff, holds_iff]
          dsimp only [hull]
          omega
        rw [ih, hhull, List.any_cons, Bool.or_assoc]

theorem any_holds_upTo (start stop : Nat) (c : Char) :
    (upTo start stop).any (·.holds c.toNat) = (start ≤ c.toNat && c.toNat < stop) := by
  have : c.toNat < 0xD800 ∨ 0xDFFF < c.toNat ∧ c.toNat < 0x110000 := c.valid
  have hfirst : firstFrom start ≤ c.toNat ↔ start ≤ c.toNat := by
    unfold firstFrom
    split <;> omega
  have hstop : c.toNat < stopAt stop ↔ c.toNat < stop := by
    unfold stopAt
    split <;> omega
  unfold upTo
  split
  · simp [holds, hfirst, hstop]
  · rw [List.any_nil, eq_comm, Bool.and_eq_false_iff, decide_eq_false_iff_not,
      decide_eq_false_iff_not, ← hfirst, ← hstop]
    omega

theorem any_holds_foldr_insert (rs : List CharRange) (n : Nat) :
    (rs.foldr insert []).any (·.holds n) = rs.any (·.holds n) := by
  induction rs with
  | nil => rfl
  | cons r rs ih => rw [List.foldr_cons, any_holds_insert, ih, List.any_cons]

/-- Whether crossed gaps make a difference for a character. -/
def Beside (c : Char) : Prop := c.toNat = 0xD7FF ∨ c.toNat = 0xE000

theorem any_holds_between {crossed : Bool} {c : Char} (hc : crossed = true → ¬Beside c)
    (start stop : Nat) :
    (between crossed start stop).any (·.holds c.toNat) = (start ≤ c.toNat && c.toNat < stop) := by
  have : c.toNat < 0xD800 ∨ 0xDFFF < c.toNat ∧ c.toNat < 0x110000 := c.valid
  unfold between
  split
  · rename_i h
    obtain ⟨hcrossed, rfl, rfl⟩ := h
    have := hc hcrossed
    unfold Beside at this
    rw [Bool.eq_iff_iff]
    simp [holds]
    omega
  · exact any_holds_upTo start stop c

/-- The gaps hold what the ranges leave from `start` on. As the ranges are in order, a character that a
later one holds lies behind the first. -/
theorem any_holds_gaps (crossed : Bool) {c : Char} (hc : crossed = true → ¬Beside c) {start : Nat}
    {rs : List CharRange} (h : rs.Pairwise Before) (hrs : ∀ r ∈ rs, start ≤ r.first) :
    (gaps crossed start rs).any (·.holds c.toNat) =
      (start ≤ c.toNat && !rs.any (·.holds c.toNat)) := by
  induction rs generalizing start with
  | nil =>
    have : c.toNat < 0x110000 := by
      have : c.toNat < 0xD800 ∨ 0xDFFF < c.toNat ∧ c.toNat < 0x110000 := c.valid
      omega
    simp [gaps, any_holds_upTo, this]
  | cons s rs ih =>
    obtain ⟨hs, h⟩ := List.pairwise_cons.1 h
    have hfirst := hrs s (.head _)
    have hlt := s.first_lt_stop
    have hlater : rs.any (·.holds c.toNat) = true → s.stop ≤ c.toNat := fun hlater => by
      obtain ⟨r, hr, hr'⟩ := List.any_eq_true.1 hlater
      have : s.stop ≤ r.first := hs r hr
      have := (holds_iff.1 hr').1
      omega
    rw [gaps, List.any_append, any_holds_between hc, ih h hs, List.any_cons, Bool.eq_iff_iff]
    generalize rs.any (·.holds c.toNat) = later at hlater
    cases later
    · simp [holds]
      omega
    · have := hlater rfl
      simp
      omega

end CharRange

/-! ## Sets -/

/-- A set of characters. -/
structure CharSet where
  ranges : List CharRange
  ordered : ranges.Pairwise CharRange.Before
  deriving DecidableEq

namespace CharSet

/-- Whether `c` belongs to the set. -/
def holds (s : CharSet) (c : Char) : Bool := s.ranges.any (·.holds c.toNat)

/-- The set of no character. -/
def empty : CharSet where
  ranges := []
  ordered := .nil

/-- The set of all characters. -/
def all : CharSet where
  ranges := [⟨0, 0x110000, by decide⟩]
  ordered := List.pairwise_singleton _ _

/-- What belongs to any of the sets. -/
def unions (sets : List CharSet) : CharSet where
  ranges := (sets.flatMap ranges).foldr CharRange.insert []
  ordered := CharRange.pairwise_foldr_insert _

/-- What belongs to either of two sets. -/
def union (s t : CharSet) : CharSet := unions [s, t]

/-- What does not belong to a set. -/
def complement (s : CharSet) : CharSet where
  ranges := CharRange.gaps false 0 s.ranges
  ordered := CharRange.pairwise_gaps s.ordered

/-- What lies outside the ranges of a set, with crossed gaps. The ranges are not joined, so this is
another set than the complement wherever a gap is crossed. -/
def negation (s : CharSet) : CharSet where
  ranges := CharRange.gaps true 0 s.ranges
  ordered := CharRange.pairwise_gaps s.ordered

/-- What belongs to both of two sets. -/
def intersection (s t : CharSet) : CharSet where
  ranges := (s.ranges.flatMap fun r => t.ranges.flatMap r.meet).foldr CharRange.insert []
  ordered := CharRange.pairwise_foldr_insert _

/-- What belongs to the first set alone. -/
def difference (s t : CharSet) : CharSet := s.intersection t.complement

/-- What belongs to just one of two sets. -/
def symmetricDifference (s t : CharSet) : CharSet := (s.union t).difference (s.intersection t)

/-- The characters from `first` to `last`. -/
def ofRange (first last : Char) : CharSet where
  ranges := CharRange.upTo first.toNat (last.toNat + 1)
  ordered := CharRange.pairwise_upTo _ _

/-- The characters of any of the ranges, which are given by their first and last ones. -/
def ofRanges (rs : List (Char × Char)) : CharSet := unions (rs.map fun r => ofRange r.1 r.2)

/-- The set of one character. -/
def single (c : Char) : CharSet := ofRange c c

/-- The set of the listed characters. -/
def ofList (cs : List Char) : CharSet := unions (cs.map single)

/-- The set of the blank characters. -/
def blank : CharSet :=
  ofRanges [('\t', '\r'), (' ', ' '), ('\u0085', '\u0085'), ('\u00a0', '\u00a0'),
    ('\u1680', '\u1680'), ('\u2000', '\u200a'), ('\u2028', '\u2029'), ('\u202f', '\u202f'),
    ('\u205f', '\u205f'), ('\u3000', '\u3000')]

/-- The set of all characters but line feeds. -/
def inLine : CharSet := (single '\n').complement

/-- Whether there is no character in the set. -/
def isEmpty (s : CharSet) : Bool := s.ranges.isEmpty

/-- Whether there is just one character in the set. -/
def isSingle (s : CharSet) : Bool :=
  match s.ranges with
  | [r] => r.stop = r.first + 1
  | _ => false

/-! ### Members -/

@[simp] theorem holds_empty (c : Char) : empty.holds c = false := rfl

@[simp] theorem holds_all (c : Char) : all.holds c = true := by
  have : c.toNat < 0xD800 ∨ 0xDFFF < c.toNat ∧ c.toNat < 0x110000 := c.valid
  simp only [holds, all, CharRange.holds, List.any_cons, List.any_nil, Bool.or_false,
    Bool.and_eq_true, decide_eq_true_eq]
  omega

@[simp] theorem holds_unions (sets : List CharSet) (c : Char) :
    (unions sets).holds c = sets.any (·.holds c) := by
  rw [holds, unions, CharRange.any_holds_foldr_insert, List.any_flatMap]
  rfl

@[simp] theorem holds_union (s t : CharSet) (c : Char) :
    (s.union t).holds c = (s.holds c || t.holds c) := by
  simp [union]

@[simp] theorem holds_complement (s : CharSet) (c : Char) : s.complement.holds c = !s.holds c := by
  have := CharRange.any_holds_gaps false nofun s.ordered (c := c) fun r _ => Nat.zero_le r.first
  simpa [holds, complement] using this

@[simp] theorem holds_intersection (s t : CharSet) (c : Char) :
    (s.intersection t).holds c = (s.holds c && t.holds c) := by
  rw [holds, intersection, CharRange.any_holds_foldr_insert, Bool.eq_iff_iff]
  simp only [List.any_flatMap, CharRange.any_holds_meet, holds, List.any_eq_true,
    Bool.and_eq_true]
  exact ⟨fun ⟨r, hr, r', hr', h, h'⟩ => ⟨⟨r, hr, h⟩, r', hr', h'⟩,
    fun ⟨⟨r, hr, h⟩, r', hr', h'⟩ => ⟨r, hr, r', hr', h, h'⟩⟩

/-- A set and its negation share no characters but those beside the gap from 0xD800 to 0xE000. -/
theorem holds_negation (s : CharSet) {c : Char} (hc : ¬CharRange.Beside c) :
    s.negation.holds c = !s.holds c := by
  have := CharRange.any_holds_gaps true (fun _ => hc) s.ordered fun r _ => Nat.zero_le r.first
  simpa [holds, negation] using this

@[simp] theorem holds_ofRange (first last c : Char) :
    (ofRange first last).holds c = (first ≤ c && c ≤ last) := by
  rw [holds, ofRange, CharRange.any_holds_upTo, Bool.eq_iff_iff]
  simp only [Bool.and_eq_true, decide_eq_true_eq, Nat.lt_succ_iff]
  exact Iff.rfl

@[simp] theorem holds_ofRanges (rs : List (Char × Char)) (c : Char) :
    (ofRanges rs).holds c = rs.any fun r => r.1 ≤ c && c ≤ r.2 := by
  simp [ofRanges, Function.comp_def]

@[simp] theorem holds_single (c d : Char) : (single c).holds d = (d == c) := by
  rw [single, holds_ofRange, Bool.eq_iff_iff]
  simp only [Bool.and_eq_true, decide_eq_true_eq, beq_iff_eq]
  exact ⟨fun h => Char.le_antisymm h.2 h.1, fun h => by simp [h]⟩

@[simp] theorem holds_ofList (cs : List Char) (c : Char) : (ofList cs).holds c = cs.contains c := by
  rw [ofList, holds_unions, List.any_map, List.contains_eq_any_beq]
  exact congrArg cs.any (funext fun d => holds_single d c)

@[simp] theorem holds_blank (c : Char) : blank.holds c = Text.isBlank c := by
  have le_iff (a b : Char) : a ≤ b ↔ a.toNat ≤ b.toNat := Iff.rfl
  simp only [blank, holds_ofRanges, List.any_cons, List.any_nil, Bool.or_false, le_iff,
    Text.isBlank]
  rw [Bool.eq_iff_iff]
  simp
  omega

@[simp] theorem holds_inLine (c : Char) : inLine.holds c = (c != '\n') := by
  rw [inLine, holds_complement, holds_single]
  rfl

end CharSet

end CStruct
