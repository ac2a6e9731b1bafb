import CStruct.DataModel

/-!
# Primitive types

The types that a member can have, with their keywords and the room that they take under a data
model.
-/

namespace CStruct

/-- The primitive types of C that members can have. -/
inductive PrimitiveType where
  | char
  | signedChar
  | unsignedChar
  | bool
  | short
  | unsignedShort
  | int
  | unsignedInt
  | long
  | unsignedLong
  | longLong
  | unsignedLongLong
  | float
  | double
  deriving DecidableEq, Inhabited

namespace PrimitiveType

def all : List PrimitiveType :=
  [.char, .signedChar, .unsignedChar, .bool, .short, .unsignedShort, .int, .unsignedInt, .long,
    .unsignedLong, .longLong, .unsignedLongLong, .float, .double]

/-- The keyword of a type. Its words are separated by single spaces. -/
def keyword : PrimitiveType → String
  | .char => "char"
  | .signedChar => "signed char"
  | .unsignedChar => "unsigned char"
  | .bool => "bool"
  | .short => "short"
  | .unsignedShort => "unsigned short"
  | .int => "int"
  | .unsignedInt => "unsigned int"
  | .long => "long"
  | .unsignedLong => "unsigned long"
  | .longLong => "long long"
  | .unsignedLongLong => "unsigned long long"
  | .float => "float"
  | .double => "double"

instance : ToString PrimitiveType := ⟨keyword⟩

/-- The type with this keyword, spelled exactly. -/
def ofText? (text : String) : Except UnknownKeyword PrimitiveType :=
  match all.find? (·.keyword == text) with
  | some t => .ok t
  | none => .error ⟨.primitiveType, text⟩

/-- The size in bytes. -/
def size (d : DataModel) : PrimitiveType → Nat
  | .char | .signedChar | .unsignedChar | .bool => 1
  | .short | .unsignedShort => 2
  | .int | .unsignedInt | .float => 4
  | .long | .unsignedLong =>
    match d with
    | .lp64 => 8
    | .llp64 | .ilp32 => 4
  | .longLong | .unsignedLongLong | .double => 8

/-- The alignment in bytes: the size, but at most four where words have 32 bits. -/
def alignment (d : DataModel) (t : PrimitiveType) : Nat :=
  match d with
  | .ilp32 => min (t.size d) 4
  | .lp64 | .llp64 => t.size d

theorem mem_all (t : PrimitiveType) : t ∈ all := by
  cases t <;> decide

theorem size_pos (d : DataModel) (t : PrimitiveType) : 0 < t.size d := by
  cases d <;> cases t <;> decide

theorem alignment_pos (d : DataModel) (t : PrimitiveType) : 0 < t.alignment d := by
  cases d <;> cases t <;> decide

/-- An element of an array of the type is aligned where the element before it ends. -/
theorem alignment_dvd_size (d : DataModel) (t : PrimitiveType) : t.alignment d ∣ t.size d := by
  cases d <;> cases t <;> decide

theorem keyword_injective {s t : PrimitiveType} (h : s.keyword = t.keyword) : s = t := by
  cases s <;> cases t <;> simp_all [keyword]

end PrimitiveType

end CStruct
