/-!
# Cursors

A `Cursor` stands between two characters of a text. It knows the character before it and all those
after it, and counts how many characters it has passed. What lies before a cursor matters to a word
boundary; what lies after it is what there is to read.
-/

namespace CStruct

/-- A place in a text, with what can be seen from there. -/
structure Cursor where
  /-- How many characters lie before the cursor. -/
  offset : Nat := 0
  /-- The character directly before the cursor, if there is one. -/
  before : Option Char := none
  /-- The characters after the cursor. -/
  rest : List Char := []
  deriving DecidableEq, Inhabited

namespace Cursor

/-- The cursor before the first character of a text. -/
def atStart (text : List Char) : Cursor := { rest := text }

/-- The cursor that has passed `ch` and has `rest` before it. -/
def pass (c : Cursor) (ch : Char) (rest : List Char) : Cursor := ⟨c.offset + 1, some ch, rest⟩

/-- The cursor one character further on, or where it is at the end of the text. -/
def next (c : Cursor) : Cursor :=
  match c.rest with
  | [] => c
  | ch :: rest => c.pass ch rest

/-- The cursor `n` characters further on, or at the end of the text. -/
def skip : Nat → Cursor → Cursor
  | 0, c => c
  | n + 1, c => skip n c.next

/-- The cursor that has `o` characters of the text before it. -/
def ofOffset (text : List Char) (o : Nat) : Cursor := (atStart text).skip o

@[simp] theorem rest_atStart (text : List Char) : (atStart text).rest = text := rfl

@[simp] theorem rest_next (c : Cursor) : c.next.rest = c.rest.tail := by
  unfold next
  split <;> simp [*, pass]

@[simp] theorem rest_skip (n : Nat) (c : Cursor) : (skip n c).rest = c.rest.drop n := by
  induction n generalizing c with
  | zero => rfl
  | succ n ih => rw [skip, ih, rest_next, List.drop_tail]

theorem offset_skip {n : Nat} {c : Cursor} (h : n ≤ c.rest.length) :
    (skip n c).offset = c.offset + n := by
  induction n generalizing c with
  | zero => rfl
  | succ n ih =>
    obtain ⟨offset, before, rest⟩ := c
    cases rest with
    | nil => simp at h
    | cons ch rest =>
      rw [skip, ih (by simpa [next, pass] using h)]
      simp only [next, pass]
      omega

theorem skip_skip (n m : Nat) (c : Cursor) : (c.skip n).skip m = c.skip (n + m) := by
  induction n generalizing c with
  | zero => rw [Nat.zero_add, skip]
  | succ n ih => rw [Nat.succ_add, skip, skip, ih]

variable {text : List Char}

theorem skip_ofOffset (o n : Nat) : (ofOffset text o).skip n = ofOffset text (o + n) :=
  skip_skip o n _

@[simp] theorem rest_ofOffset (o : Nat) : (ofOffset text o).rest = text.drop o := rest_skip o _

theorem offset_ofOffset {o : Nat} (h : o ≤ text.length) : (ofOffset text o).offset = o :=
  (offset_skip h).trans (Nat.zero_add o)

end Cursor

end CStruct
