/-!
# Columns

Text is filled up with spaces to a least width, so that columns stand below one another. Text that
is wider already is left as it is.
-/

namespace CStruct.Text

/-- Spaces that are missing from `s` to the width `n`. -/
def filling (n : Nat) (s : String) : String :=
  String.ofList (List.replicate (n - s.length) ' ')

/-- The text at the right end of a column. -/
def padLeft (n : Nat) (s : String) : String := filling n s ++ s

/-- The text at the left end of a column. -/
def padRight (n : Nat) (s : String) : String := s ++ filling n s

theorem length_filling (n : Nat) (s : String) : (filling n s).length = n - s.length := by
  simp [filling]

/-- A column is as wide as its widest text, and no narrower than its least width. -/
theorem length_padLeft (n : Nat) (s : String) : (padLeft n s).length = max n s.length := by
  rw [padLeft, String.length_append, length_filling]
  omega

theorem length_padRight (n : Nat) (s : String) : (padRight n s).length = max n s.length := by
  rw [padRight, String.length_append, length_filling]
  omega

end CStruct.Text
