import CStruct.Proofs.Layout.Placement

/-!
# Layouts on words

How a machine with words of 64 bits lays out members: rounding up by a division with remainder, with
products and sums that are checked. What is checked and does not fit into a word is refused; what is
not checked would wrap around, and a division by zero would stop the machine. Neither happens: a
layout on words is refused if and only if the size of the struct without a limit does not fit into a
word, and otherwise comes to the same as without a limit (`exact_layout`).
-/

namespace CStruct

namespace Layout

/-- Where members start that are placed from `offset` on, without a limit. -/
def exactOffsets (offset : Nat) : List Extent → List Nat
  | [] => []
  | e :: es =>
    alignUp offset e.alignment :: exactOffsets (alignUp offset e.alignment + e.size) es

theorem Placed.offsets_eq {o : LayoutOptions} {offset stop : Nat} {ms : List Member}
    (h : Placed o offset ms stop) :
    ms.map (·.offset) = exactOffsets offset (ms.map fun m => m.toField.extent o) := by
  induction h with
  | nil => rfl
  | @cons offset _ m ms hoffset _ ih =>
    show m.offset :: ms.map (·.offset) = alignUp offset (m.alignment o) ::
      exactOffsets (alignUp offset (m.alignment o) + m.size) _
    rw [ih, ← hoffset, Member.stop]

theorem exactAlignment_pos (es : List Extent) : 0 < exactAlignment es := by
  have hle (a : Nat) (ha : 0 < a) : 0 < es.foldl (fun a e => max a e.alignment) a := by
    induction es generalizing a with
    | nil => exact ha
    | cons e es ih => exact ih (max a e.alignment) (by omega)
  exact hle 1 Nat.one_pos

theorem exactStop_le_exactSize (es : List Extent) : exactStop 0 es ≤ exactSize es :=
  le_alignUp _ (exactAlignment_pos es)

section Sizes

variable {es : List Extent} (hes : ∀ e ∈ es, 0 < e.alignment)
include hes

/-- Members are placed one behind another, and a struct is at least as large as each of them. -/
theorem le_exactStop_of_pos (offset : Nat) :
    offset ≤ exactStop offset es ∧ ∀ e ∈ es, e.size ≤ exactStop offset es := by
  induction es generalizing offset with
  | nil => exact ⟨Nat.le_refl offset, nofun⟩
  | cons e es ih =>
    obtain ⟨hpos, hrest⟩ := List.forall_mem_cons.1 hes
    have halign := le_alignUp offset hpos
    obtain ⟨hstop, hsizes⟩ := ih hrest (alignUp offset e.alignment + e.size)
    show offset ≤ exactStop (alignUp offset e.alignment + e.size) es ∧ _
    exact ⟨by omega, List.forall_mem_cons.2 ⟨by
      show e.size ≤ exactStop (alignUp offset e.alignment + e.size) es
      omega, hsizes⟩⟩

theorem size_le_exactSize {e : Extent} (he : e ∈ es) : e.size ≤ exactSize es :=
  Nat.le_trans ((le_exactStop_of_pos hes 0).2 e he) (exactStop_le_exactSize es)

end Sizes

end Layout

/-! ## Arithmetic on words -/

/-- What can go wrong in a computation on words. -/
inductive WordFault where
  /-- An operation that is checked has no result in a word. -/
  | overflow
  /-- An operation that is not checked has no result in a word. -/
  | wrap
  | divisionByZero
  deriving DecidableEq

namespace Word

def checkedAdd (a b : UInt64) : Except WordFault UInt64 :=
  if a.toNat + b.toNat < addressLimit then .ok (a + b) else .error .overflow

def checkedMul (a b : UInt64) : Except WordFault UInt64 :=
  if a.toNat * b.toNat < addressLimit then .ok (a * b) else .error .overflow

/-- The next number, which is taken to be a word. -/
def increment (a : UInt64) : Except WordFault UInt64 :=
  if a + 1 = 0 then .error .wrap else .ok (a + 1)

/-- Quotient and remainder. -/
def divMod (a b : UInt64) : Except WordFault (UInt64 × UInt64) :=
  if b = 0 then .error .divisionByZero else .ok (a / b, a % b)

/-- The quotient, rounded up. -/
def ceilDiv (a b : UInt64) : Except WordFault UInt64 := do
  let (quotient, remainder) ← divMod a b
  if 0 < remainder then increment quotient else .ok quotient

/-- The first multiple of `a` at or above `n`. -/
def alignUp (n a : UInt64) : Except WordFault UInt64 := do
  checkedMul (← ceilDiv n a) a

/-- A layout that was computed on words. -/
structure Layout where
  offsets : List UInt64
  size : UInt64
  alignment : UInt64

/-- Places members with these sizes and alignments one after another. Answers where they start,
where the last one ends, and the strictest alignment met. -/
def place (offset alignment : UInt64) :
    List (UInt64 × UInt64) → Except WordFault (List UInt64 × UInt64 × UInt64)
  | [] => .ok ([], offset, alignment)
  | (size, a) :: es => do
    let start ← alignUp offset a
    let stop ← checkedAdd start size
    let (starts, stop, alignment) ← place stop (max alignment a) es
    .ok (start :: starts, stop, alignment)

/-- Lays out members with these sizes and alignments. -/
def layout (es : List (UInt64 × UInt64)) : Except WordFault Layout := do
  let (offsets, stop, alignment) ← place 0 1 es
  let size ← alignUp stop alignment
  .ok { offsets, size, alignment }

/-! ## Exact or refused -/

/-- If it fits, the computation comes to something good, and else it is refused for an overflow. -/
def Exact {α : Type} (fits : Prop) (Good : α → Prop) (x : Except WordFault α) : Prop :=
  (fits → ∃ a, x = .ok a ∧ Good a) ∧ (¬fits → x = .error .overflow)

namespace Exact

variable {α β : Type} {fits fits' : Prop} {Good : α → Prop} {Good' : β → Prop}
  {x : Except WordFault α}

theorem ok {a : α} (hfits : fits) (ha : Good a) : Exact fits Good (.ok a) :=
  ⟨fun _ => ⟨a, rfl, ha⟩, fun h => absurd hfits h⟩

/-- What comes later fits only if what comes before does. -/
theorem bind {f : α → Except WordFault β} (hx : Exact fits Good x) (himp : fits' → fits)
    (hf : fits → ∀ a, Good a → Exact fits' Good' (f a)) : Exact fits' Good' (x >>= f) := by
  by_cases hfits : fits
  · obtain ⟨a, rfl, ha⟩ := hx.1 hfits
    exact hf hfits a ha
  · rw [hx.2 hfits]
    exact ⟨fun h => absurd (himp h) hfits, fun _ => rfl⟩

end Exact

variable {a b n : UInt64}

theorem toNat_lt (a : UInt64) : a.toNat < addressLimit := a.toNat_lt

theorem exact_checkedAdd (a b : UInt64) :
    Exact (a.toNat + b.toNat < addressLimit) (·.toNat = a.toNat + b.toNat) (checkedAdd a b) := by
  unfold checkedAdd
  constructor
  · intro h
    rw [if_pos h]
    refine ⟨a + b, rfl, ?_⟩
    show (a + b).toNat = _
    rw [UInt64.toNat_add]
    exact Nat.mod_eq_of_lt h
  · exact fun h => if_neg h

theorem exact_checkedMul (a b : UInt64) :
    Exact (a.toNat * b.toNat < addressLimit) (·.toNat = a.toNat * b.toNat) (checkedMul a b) := by
  unfold checkedMul
  constructor
  · intro h
    rw [if_pos h]
    refine ⟨a * b, rfl, ?_⟩
    show (a * b).toNat = _
    rw [UInt64.toNat_mul]
    exact Nat.mod_eq_of_lt h
  · exact fun h => if_neg h

/-- The next number fits into a word if any larger number does. -/
theorem increment_eq {m : Nat} (h : a.toNat < m) (hm : m < addressLimit) :
    increment a = .ok (a + 1) ∧ (a + 1).toNat = a.toNat + 1 := by
  have hsucc : (a + 1).toNat = a.toNat + 1 := by
    rw [UInt64.toNat_add]
    apply Nat.mod_eq_of_lt
    show a.toNat + 1 < addressLimit
    omega
  refine ⟨if_neg fun hzero => ?_, hsucc⟩
  rw [hzero] at hsucc
  exact absurd hsucc (Nat.succ_ne_zero _).symm

theorem divMod_eq (hb : 0 < b.toNat) : divMod a b = .ok (a / b, a % b) := by
  apply if_neg
  rintro rfl
  exact absurd hb (by decide)

/-- Rounding a quotient up needs no larger number than the dividend. -/
theorem ceilDiv_eq (ha : 0 < a.toNat) :
    ∃ q, ceilDiv n a = .ok q ∧ q.toNat = (n.toNat + a.toNat - 1) / a.toNat := by
  have hdiv : (n / a).toNat = n.toNat / a.toNat := UInt64.toNat_div ..
  have hmod : (n % a).toNat = n.toNat % a.toNat := UInt64.toNat_mod ..
  have heuclid := Nat.div_add_mod n.toNat a.toNat
  have hlt := Nat.mod_lt n.toNat ha
  unfold ceilDiv
  rw [divMod_eq ha]
  show ∃ q, (if 0 < n % a then increment (n / a) else .ok (n / a)) = .ok q ∧ _
  by_cases hpos : 0 < n % a
  · rw [if_pos hpos]
    have hpos : 0 < n.toNat % a.toNat := by
      rw [← hmod]
      exact UInt64.lt_iff_toNat_lt.1 hpos
    -- a remainder is left, so the divisor is at least two and the quotient below the dividend
    have hquotient : (n / a).toNat < n.toNat := by
      rw [hdiv]
      exact Nat.div_lt_self (Nat.lt_of_lt_of_le hpos (Nat.mod_le ..)) (by omega)
    obtain ⟨hincrement, hsucc⟩ := increment_eq hquotient (toNat_lt n)
    refine ⟨n / a + 1, hincrement, ?_⟩
    rw [hsucc, hdiv]
    symm
    apply Nat.div_eq_of_lt_le
    · rw [Nat.add_mul, Nat.mul_comm]
      omega
    · rw [Nat.add_mul, Nat.add_mul, Nat.mul_comm]
      omega
  · rw [if_neg hpos]
    have hzero : n.toNat % a.toNat = 0 := by
      have hnot := mt UInt64.lt_iff_toNat_lt.2 hpos
      rw [hmod] at hnot
      exact Nat.eq_zero_of_not_pos hnot
    refine ⟨n / a, rfl, ?_⟩
    rw [hdiv]
    symm
    apply Nat.div_eq_of_lt_le
    · rw [Nat.mul_comm]
      omega
    · rw [Nat.add_mul, Nat.mul_comm]
      omega

theorem exact_alignUp (ha : 0 < a.toNat) :
    Exact (CStruct.alignUp n.toNat a.toNat < addressLimit)
      (·.toNat = CStruct.alignUp n.toNat a.toNat) (alignUp n a) := by
  obtain ⟨q, hq, heq⟩ := ceilDiv_eq (n := n) ha
  unfold alignUp CStruct.alignUp
  rw [hq, ← heq]
  exact exact_checkedMul q a

/-! ## Layouts -/

/-- The words for what a member takes of a struct. -/
def Represents (w : UInt64 × UInt64) (e : Extent) : Prop :=
  w.1.toNat = e.size ∧ w.2.toNat = e.alignment

open CStruct.Layout in
theorem exact_place {es : List Extent} {ws : List (UInt64 × UInt64)}
    (h : List.Forall₂ Represents ws es) (hes : ∀ e ∈ es, 0 < e.alignment)
    (offset alignment : UInt64) :
    Exact (exactStop offset.toNat es < addressLimit)
      (fun (starts, stop, strictest) => starts.map UInt64.toNat = exactOffsets offset.toNat es ∧
        stop.toNat = exactStop offset.toNat es ∧
        strictest.toNat = es.foldl (fun a e => max a e.alignment) alignment.toNat)
      (place offset alignment ws) := by
  induction h generalizing offset alignment with
  | nil => exact .ok (toNat_lt offset) ⟨rfl, rfl, rfl⟩
  | @cons w e ws es hw _ ih =>
    obtain ⟨size, a⟩ := w
    obtain ⟨hsize, ha⟩ := hw
    dsimp only at hsize ha
    obtain ⟨hpos, hrest⟩ := List.forall_mem_cons.1 hes
    -- no member starts or ends behind the end of the last one
    have hstop := (le_exactStop_of_pos hrest (CStruct.alignUp offset.toNat e.alignment + e.size)).1
    have hmax : (max alignment a).toNat = max alignment.toNat a.toNat := UInt64.toNat_max ..
    unfold place exactStop exactOffsets
    rw [← ha] at hpos hstop ⊢
    rw [← hsize] at hstop ⊢
    refine (exact_alignUp hpos).bind (by omega) fun _ start hstart => ?_
    rw [← hstart] at hstop ⊢
    refine (exact_checkedAdd start size).bind (by omega) fun _ stop hend => ?_
    rw [← hend]
    refine (ih hrest stop (max alignment a)).bind id fun hfits placed hplaced => ?_
    obtain ⟨starts, last, strictest⟩ := placed
    obtain ⟨hstarts, hlast, hstrictest⟩ := hplaced
    refine .ok hfits ⟨?_, hlast, ?_⟩
    · rw [List.map_cons, hstarts]
    · rw [hstrictest, hmax, List.foldl_cons, ha]

open CStruct.Layout in
/-- A layout on words is what it is without a limit, or it is refused because its size does not fit
into a word. -/
theorem exact_layout {es : List Extent} {ws : List (UInt64 × UInt64)}
    (h : List.Forall₂ Represents ws es) (hes : ∀ e ∈ es, 0 < e.alignment) :
    Exact (exactSize es < addressLimit)
      (fun l => l.offsets.map UInt64.toNat = exactOffsets 0 es ∧ l.size.toNat = exactSize es ∧
        l.alignment.toNat = exactAlignment es)
      (layout ws) := by
  have hstop := exactStop_le_exactSize es
  have hpos := exactAlignment_pos es
  unfold layout
  refine (exact_place h hes 0 1).bind (fun hfits => Nat.lt_of_le_of_lt hstop hfits)
    fun _ placed hplaced => ?_
  obtain ⟨offsets, stop, alignment⟩ := placed
  obtain ⟨hoffsets, hlast, hstrictest⟩ := hplaced
  have hsize : exactSize es = CStruct.alignUp stop.toNat alignment.toNat := by
    rw [hlast, hstrictest]
    rfl
  have halignment : alignment.toNat = exactAlignment es := hstrictest
  rw [hsize]
  refine (exact_alignUp (by omega)).bind id fun hfits size hrounded => ?_
  exact .ok hfits ⟨hoffsets, hrounded, halignment⟩

end Word

end CStruct
