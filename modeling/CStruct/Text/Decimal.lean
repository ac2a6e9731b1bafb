/-!
# Decimal numbers

Numbers are written with the ten ASCII digits, the highest place first. Leading zeros are allowed
and change nothing.
-/

namespace CStruct.Text

/-- The value of a digit. -/
def digitValue (c : Char) : Nat := c.toNat - '0'.toNat

/-- The value of a run of digits. -/
def decimalValue (digits : List Char) : Nat :=
  digits.foldl (fun n c => 10 * n + digitValue c) 0

/-- The number that a text of at least one digit and nothing else stands for. -/
def readDecimal? (text : List Char) : Option Nat :=
  if !text.isEmpty && text.all Char.isDigit then some (decimalValue text) else none

/-- Every further digit adds a place. -/
theorem decimalValue_append_digit (digits : List Char) (c : Char) :
    decimalValue (digits ++ [c]) = 10 * decimalValue digits + digitValue c := by
  simp [decimalValue]

theorem readDecimal?_eq_some_iff {text : List Char} {n : Nat} :
    readDecimal? text = some n ↔
      text ≠ [] ∧ (∀ c ∈ text, c.isDigit = true) ∧ decimalValue text = n := by
  simp [readDecimal?, and_assoc]

end CStruct.Text
