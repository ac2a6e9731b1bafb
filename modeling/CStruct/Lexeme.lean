import CStruct.Text.Position

/-!
# Lexemes

A `Lexeme` is a piece of a source text that means something as a whole: a word, a number, an
operator or a comment.
-/

namespace CStruct

/-- What a lexeme is. -/
inductive LexemeKind where
  | comment
  | number
  | type
  | name
  | operator
  deriving DecidableEq, Inhabited

def LexemeKind.all : List LexemeKind := [.comment, .number, .type, .name, .operator]

instance : ToString LexemeKind :=
  ⟨fun
    | .comment => "comment"
    | .number => "number"
    | .type => "type"
    | .name => "name"
    | .operator => "operator"⟩

/-- A piece of a source text, with what it is and where it stands. -/
structure Lexeme where
  kind : LexemeKind
  text : String
  span : Span
  deriving DecidableEq, Inhabited

def Lexeme.isComment (l : Lexeme) : Bool := l.kind == .comment

end CStruct
