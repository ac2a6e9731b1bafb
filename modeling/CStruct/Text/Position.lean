/-!
# Positions in a source text

A `Position` counts lines and, within a line, characters; both start at zero. Only a line feed ends
a line. A `Span` is the stretch of text between two positions. Positions are ordered as they follow
one another in the text, line first.
-/

namespace CStruct

/-- A place between two characters of a text. -/
structure Position where
  line : Nat := 0
  character : Nat := 0
  deriving DecidableEq, Inhabited

namespace Position

/-- The position after reading `c` at `p`. -/
def next (p : Position) (c : Char) : Position :=
  if c = '\n' then ⟨p.line + 1, 0⟩ else ⟨p.line, p.character + 1⟩

/-- The position after reading the characters of `cs` from `p` on. -/
def after (p : Position) (cs : List Char) : Position :=
  cs.foldl next p

/-- Lines decide; on one line, characters do. -/
instance : LE Position :=
  ⟨fun p q => p.line < q.line ∨ p.line = q.line ∧ p.character ≤ q.character⟩

instance : LT Position :=
  ⟨fun p q => p.line < q.line ∨ p.line = q.line ∧ p.character < q.character⟩

instance (p q : Position) : Decidable (p ≤ q) :=
  inferInstanceAs (Decidable (_ ∨ _))

instance (p q : Position) : Decidable (p < q) :=
  inferInstanceAs (Decidable (_ ∨ _))

instance : Ord Position :=
  ⟨fun p q => (compare p.line q.line).then (compare p.character q.character)⟩

/-- People count lines and characters from one. -/
instance : ToString Position :=
  ⟨fun p => s!"{p.line + 1}:{p.character + 1}"⟩

theorem le_iff {p q : Position} :
    p ≤ q ↔ p.line < q.line ∨ p.line = q.line ∧ p.character ≤ q.character := Iff.rfl

theorem lt_iff {p q : Position} :
    p < q ↔ p.line < q.line ∨ p.line = q.line ∧ p.character < q.character := Iff.rfl

theorem le_refl (p : Position) : p ≤ p :=
  .inr ⟨rfl, Nat.le_refl _⟩

theorem le_trans {p q r : Position} (hpq : p ≤ q) (hqr : q ≤ r) : p ≤ r := by
  rw [le_iff] at *
  omega

theorem le_of_lt {p q : Position} (h : p < q) : p ≤ q := by
  rw [lt_iff] at h
  rw [le_iff]
  omega

theorem lt_of_lt_of_le {p q r : Position} (hpq : p < q) (hqr : q ≤ r) : p < r := by
  rw [lt_iff] at *
  rw [le_iff] at hqr
  omega

theorem lt_irrefl (p : Position) : ¬ p < p := by
  rw [lt_iff]
  omega

@[simp] theorem after_nil (p : Position) : p.after [] = p := rfl

@[simp] theorem after_cons (p : Position) (c : Char) (cs : List Char) :
    p.after (c :: cs) = (p.next c).after cs := rfl

@[simp] theorem after_append (p : Position) (cs ds : List Char) :
    p.after (cs ++ ds) = (p.after cs).after ds :=
  List.foldl_append

/-- Every character moves the position forward. -/
theorem lt_next (p : Position) (c : Char) : p < p.next c := by
  unfold next
  split <;> simp [lt_iff]

theorem le_after (p : Position) (cs : List Char) : p ≤ p.after cs := by
  induction cs generalizing p with
  | nil => exact le_refl p
  | cons c cs ih => exact le_trans (le_of_lt (lt_next p c)) (ih (p.next c))

theorem lt_after (p : Position) {cs : List Char} (h : cs ≠ []) : p < p.after cs := by
  obtain ⟨c, cs, rfl⟩ := List.exists_cons_of_ne_nil h
  exact lt_of_lt_of_le (lt_next p c) (le_after (p.next c) cs)

end Position

/-- The stretch of text from `start` to `stop`. -/
structure Span where
  start : Position := {}
  stop : Position := {}
  deriving DecidableEq, Inhabited

namespace Span

/-- The span of no text at `p`. -/
def empty (p : Position) : Span := ⟨p, p⟩

/-- A span covers no text when it ends where it starts. -/
def isEmpty (s : Span) : Bool := s.start == s.stop

/-- Both ends belong to a span, so an empty span still holds one position. -/
instance : Membership Position Span :=
  ⟨fun s p => s.start ≤ p ∧ p ≤ s.stop⟩

instance (p : Position) (s : Span) : Decidable (p ∈ s) :=
  inferInstanceAs (Decidable (_ ∧ _))

@[simp] theorem isEmpty_empty (p : Position) : (empty p).isEmpty = true := by
  simp [isEmpty, empty]

theorem mem_empty (p : Position) : p ∈ empty p :=
  ⟨Position.le_refl p, Position.le_refl p⟩

end Span

end CStruct
