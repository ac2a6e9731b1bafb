import CStruct.Keyword

/-!
# Data models

A data model says how wide the integer types of a platform are and how its wide types are aligned.
-/

namespace CStruct

/-- The integer widths of a platform. -/
inductive DataModel where
  /-- Long integers and pointers have 64 bits. -/
  | lp64
  /-- Long long integers and pointers have 64 bits, long integers 32. -/
  | llp64
  /-- Integers, long integers and pointers have 32 bits. -/
  | ilp32
  deriving DecidableEq

namespace DataModel

instance : Inhabited DataModel := ⟨.lp64⟩

def all : List DataModel := [.lp64, .llp64, .ilp32]

def keyword : DataModel → String
  | .lp64 => "lp64"
  | .llp64 => "llp64"
  | .ilp32 => "ilp32"

instance : ToString DataModel := ⟨keyword⟩

/-- The data model with this keyword; capital letters count as small ones. -/
def ofText? (text : String) : Except UnknownKeyword DataModel :=
  match all.find? fun d => d.keyword == String.ofList (text.toList.map Char.toLower) with
  | some d => .ok d
  | none => .error ⟨.dataModel, text⟩

end DataModel

end CStruct
