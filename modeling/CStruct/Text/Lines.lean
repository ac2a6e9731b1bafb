/-!
# Lines of a text

A line ends at a line feed, or at the end of the text. A carriage return directly before the line
feed belongs to the line break; any other is part of its line. A text that ends in a line break has
no further, empty line after it.
-/

namespace CStruct.Text

/-- The lines of a text, without their line breaks. -/
def lines : List Char → List (List Char)
  | [] => []
  | '\n' :: cs => [] :: lines cs
  | '\r' :: '\n' :: cs => [] :: lines cs
  | c :: cs =>
    match lines cs with
    | [] => [[c]]
    | l :: ls => (c :: l) :: ls

/-- No line holds a line feed. -/
theorem not_mem_of_mem_lines {cs l : List Char} (h : l ∈ lines cs) : '\n' ∉ l := by
  fun_induction lines cs generalizing l with
  | case1 => simp at h
  | case2 cs ih => grind
  | case3 cs ih => grind
  | case4 c cs _ _ hl ih => grind
  | case5 c cs _ _ l' ls hl ih => grind

end CStruct.Text
