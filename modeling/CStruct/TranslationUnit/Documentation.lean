import CStruct.Comment
import CStruct.TranslationUnit.Basic

/-!
# Documentation

A comment documents a declaration if it starts on the line of the declaration, or if it ends on the
line above and no other declaration that belongs together with it ends there, so that a comment
behind one member is not taken for that of the next.
-/

namespace CStruct.TranslationUnit

/-- The declarations that share a scope with a symbol and, if it is a struct, those in its body. -/
def neighbours (u : TranslationUnit) (id : SymbolId) : List SymbolId :=
  let outer := (u.symbol id).scope?.elim [] u.declared
  let inner := if u.isStruct id then u.members id else []
  (outer ++ inner).filter (· ≠ id)

/-- Whether a symbol stands on line `line + 1`. -/
def standsBelow (u : TranslationUnit) (id : SymbolId) (line : Nat) : Bool :=
  line + 1 == (u.symbol id).span.start.line

/-- Whether a neighbour of a symbol ends on the line above it. -/
def isCrowded (u : TranslationUnit) (id : SymbolId) : Bool :=
  (u.neighbours id).any fun other => u.standsBelow id (u.symbol other).span.stop.line

/-- Whether a comment documents a symbol. -/
def documents (u : TranslationUnit) (id : SymbolId) (comment : Lexeme) : Bool :=
  (u.standsBelow id comment.span.stop.line && !u.isCrowded id) ||
    comment.span.start.line == (u.symbol id).span.start.line

/-- The comment that documents a symbol: the first that does. Comments that end below the symbol are
not looked at, nor those after them. -/
def comment? (u : TranslationUnit) (id : SymbolId) : Option Lexeme :=
  (u.comments.toList.takeWhile fun c => c.span.stop.line ≤ (u.symbol id).span.stop.line).find?
    (u.documents id)

/-- What the comment that documents a symbol says. -/
def description? (u : TranslationUnit) (id : SymbolId) : Option String :=
  (u.comment? id).map fun c => Comment.description c.text

end CStruct.TranslationUnit
