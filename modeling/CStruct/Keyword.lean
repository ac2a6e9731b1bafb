/-!
# Keywords

Data models and primitive types are named by keywords. A spelling that is not among them is refused
with an `UnknownKeyword`, which says what was looked for.
-/

namespace CStruct

/-- What a spelling should have been a keyword for. -/
inductive KeywordKind where
  | dataModel
  | primitiveType
  deriving DecidableEq

instance : ToString KeywordKind :=
  ⟨fun
    | .dataModel => "data model"
    | .primitiveType => "primitive type"⟩

/-- A spelling that is no keyword of its kind. -/
structure UnknownKeyword where
  kind : KeywordKind
  spelling : String
  deriving DecidableEq

def UnknownKeyword.message (e : UnknownKeyword) : String :=
  s!"Unknown {e.kind} `{e.spelling}`"

end CStruct
