import CStruct.Dictionary
import CStruct.Symbol.Basic

/-!
# Scopes

A `Scope` is a part of a source in which names have meanings of their own: the whole source, or the
body of a struct. It holds the names that were declared in it and the keywords that were used in it.
-/

namespace CStruct

/-- The meanings of names in a part of a source. -/
structure Scope where
  /-- The symbol that each name stands for, in the order in which the names were first defined. -/
  definitions : Dictionary SymbolId := {}
  /-- The scope around this one; the scope of the whole source has none. -/
  parent? : Option ScopeId := none
  deriving DecidableEq, Inhabited

namespace Scope

/-- Whether this is the scope of the whole source. -/
def isGlobal (s : Scope) : Bool := s.parent?.isNone

/-- The symbol that a name stands for in this scope. -/
def get? (s : Scope) (name : String) : Option SymbolId := s.definitions.get? name

/-- The scope with a name standing for a symbol. -/
def insert (s : Scope) (name : String) (id : SymbolId) : Scope :=
  { s with definitions := s.definitions.insert name id }

end Scope

end CStruct
