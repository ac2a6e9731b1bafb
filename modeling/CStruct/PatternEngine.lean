/-!
# Pattern engines

A `PatternEngine` reads written patterns and looks for them in texts. What can be written, and which
of several matches counts, is up to the engine. Of most engines more is known than that: one that is
`LeftmostFirst` finds the first place where the pattern matches at all, and there the match that it
would find if it started to look at that place.
-/

namespace CStruct

/-- A stretch of text that fits a pattern. -/
structure Match where
  /-- How many characters lie before the match. -/
  start : Nat
  /-- How many characters lie before the end of the match. -/
  stop : Nat
  /-- The names of the groups that took part in the match. -/
  groups : List String := []
  deriving DecidableEq

/-- What reads patterns and finds their matches. -/
structure PatternEngine where
  /-- A pattern that has been read. -/
  Regex : Type
  /-- Reads a written pattern, or says what is wrong with it. -/
  read? : String → Except String Regex
  /-- The match that is found in a text from an offset on. The characters before the offset are seen
  as well. -/
  find? : Regex → List Char → Nat → Option Match
  /-- What is found lies in the text, and not before the offset. -/
  bounds : ∀ {regex text offset m}, find? regex text offset = some m →
    offset ≤ m.start ∧ m.start ≤ m.stop ∧ m.stop ≤ text.length

namespace PatternEngine

variable (E : PatternEngine)

/-- The match that counts among those that start at the offset. -/
def matchAt? (regex : E.Regex) (text : List Char) (offset : Nat) : Option Match :=
  (E.find? regex text offset).filter (·.start = offset)

/-- The match counts at the first place from the offset on that has one. -/
structure IsLeftmost (regex : E.Regex) (text : List Char) (offset : Nat) (m : Match) : Prop where
  le : offset ≤ m.start
  here : E.matchAt? regex text m.start = some m
  before : ∀ s, offset ≤ s → s < m.start → E.matchAt? regex text s = none

/-- Whether searches find the leftmost match. -/
def LeftmostFirst : Prop :=
  ∀ regex text offset m,
    E.find? regex text offset = some m ↔ E.IsLeftmost regex text offset m

variable {E} {regex : E.Regex} {text : List Char} {offset : Nat} {m : Match}

theorem matchAt?_eq_some_iff :
    E.matchAt? regex text offset = some m ↔
      E.find? regex text offset = some m ∧ m.start = offset := by
  simp [matchAt?, Option.filter_eq_some_iff]

/-- A match at an offset starts there. -/
theorem start_of_matchAt? (h : E.matchAt? regex text offset = some m) : m.start = offset :=
  (matchAt?_eq_some_iff.1 h).2

theorem bounds_of_matchAt? (h : E.matchAt? regex text offset = some m) :
    m.start ≤ m.stop ∧ m.stop ≤ text.length :=
  (E.bounds (matchAt?_eq_some_iff.1 h).1).2

namespace LeftmostFirst

variable (hE : E.LeftmostFirst)
include hE

theorem isLeftmost (h : E.find? regex text offset = some m) : E.IsLeftmost regex text offset m :=
  (hE ..).1 h

/-- Where nothing is found, nothing matches from there on. -/
theorem matchAt?_of_find?_none (h : E.find? regex text offset = none) {s : Nat} (hs : offset ≤ s) :
    E.matchAt? regex text s = none := by
  -- the first place with a match would have been found
  induction s using Nat.strongRecOn with
  | ind s ih =>
    cases hmatch : E.matchAt? regex text s with
    | none => rfl
    | some m =>
      obtain rfl := start_of_matchAt? hmatch
      have hfound : E.find? regex text offset = some m :=
        (hE ..).2 ⟨hs, hmatch, fun s' hs' hlt => ih s' hlt hs'⟩
      rw [h] at hfound
      cases hfound

end LeftmostFirst

end PatternEngine

end CStruct
