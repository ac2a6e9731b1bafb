import CStruct.Layout.Basic
import CStruct.Text.Pad

/-!
# Structs

A `Struct` is a struct declaration with its layout, and how it is shown: a line for the struct, one
for its description, and one for each member with offset, size, type, name and description.
-/

namespace CStruct

/-- A struct declaration with its layout. -/
structure Struct extends Layout where
  name : String
  /-- The typedef name of a struct that has a tag as well. -/
  alias? : Option String := none
  description : String := ""
  /-- Where the name of the struct stands. -/
  span : Span := {}
  deriving DecidableEq

/-- A description on one line, behind comment marks; an empty one is left out. -/
def renderDescription (description : String) : String :=
  if description.isEmpty then ""
  else
    "  // " ++ String.ofList (description.toList.map fun c => if c = '\n' then ' ' else c)

/-- A member in columns. -/
def Member.render (m : Member) : String :=
  let offset := Text.padLeft 4 (toString m.offset)
  let size := Text.padLeft 4 (toString m.size)
  let type := Text.padRight 22 m.typeName
  s!"  {offset}  {size}  {type} {m.name}{renderDescription m.description}\n"

namespace Struct

/-- The first member with this name. -/
def member? (s : Struct) (name : String) : Option Member :=
  s.members.find? (·.name == name)

/-- The typedef name as it is shown behind the name. -/
def renderAlias (s : Struct) : String :=
  s.alias?.elim "" fun a => s!" (typedef {a})"

/-- The description as it is shown on a line of its own. -/
def descriptionLine (s : Struct) : String :=
  if s.description.isEmpty then "" else renderDescription s.description ++ "\n"

/-- The struct and its members, a line for each. -/
def render (s : Struct) : String :=
  s!"struct {s.name}{s.renderAlias}: {s.size} bytes, align {s.alignment}\n" ++ s.descriptionLine ++
    String.join (s.members.map Member.render)

end Struct

end CStruct
