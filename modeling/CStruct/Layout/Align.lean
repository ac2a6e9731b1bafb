/-!
# Alignment

`alignUp n a` is the first multiple of `a` at or above `n`.
-/

namespace CStruct

/-- The first multiple of `a` at or above `n`. -/
def alignUp (n a : Nat) : Nat := (n + a - 1) / a * a

theorem dvd_alignUp (n a : Nat) : a ∣ alignUp n a := Nat.dvd_mul_left ..

theorem le_alignUp {a : Nat} (n : Nat) (h : 0 < a) : n ≤ alignUp n a := by
  have := Nat.div_add_mod (n + a - 1) a
  have := Nat.mod_lt (n + a - 1) h
  rw [alignUp, Nat.mul_comm]
  omega

theorem alignUp_lt {a : Nat} (n : Nat) (h : 0 < a) : alignUp n a < n + a := by
  have := Nat.div_mul_le_self (n + a - 1) a
  rw [alignUp]
  omega

/-- No smaller multiple lies at or above `n`. -/
theorem alignUp_le {n m a : Nat} (ha : 0 < a) (hm : a ∣ m) (h : n ≤ m) : alignUp n a ≤ m := by
  obtain ⟨k, rfl⟩ := hm
  rw [alignUp, Nat.mul_comm]
  refine Nat.mul_le_mul_left a (Nat.le_of_lt_succ ?_)
  rw [Nat.div_lt_iff_lt_mul ha, Nat.succ_mul, Nat.mul_comm]
  omega

theorem alignUp_eq_self {n a : Nat} (ha : 0 < a) (h : a ∣ n) : alignUp n a = n :=
  Nat.le_antisymm (alignUp_le ha h (Nat.le_refl n)) (le_alignUp n ha)

@[simp] theorem alignUp_one (n : Nat) : alignUp n 1 = n :=
  alignUp_eq_self (by decide) (Nat.one_dvd n)

end CStruct
