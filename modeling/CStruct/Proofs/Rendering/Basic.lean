import CStruct.Proofs.Grammar.Basic
import CStruct.Proofs.Lexicon.Spelling
import CStruct.PrimitiveType
import Mathlib.Data.List.Chain

/-!
# Writing struct declarations down

A list of struct declarations can be written in many ways: members of one type can share a
declaration, the word `typedef` can stand in front, and any gap of blanks and comments can stand
between two lexemes. `WritesAll` says which lexemes write the declarations down, and `Spaced` which
gaps keep these lexemes apart. The names in a written declaration are lexemes, so that they say where
in the source they stand.
-/

namespace CStruct

namespace Rendering

/-! ## Gaps -/

inductive Separator : List Char → Prop where
  | blank {c : Char} (hc : Text.isBlank c = true) : Separator [c]
  | blockComment {body : List Char} (hbody : ¬['*', '/'] <:+: body) :
      Separator ('/' :: '*' :: (body ++ ['*', '/']))
  | lineComment {body : List Char} (hbody : body.all Scanner.inLine = true) :
      Separator ('/' :: '/' :: (body ++ ['\n']))

inductive Gap : List Char → Prop where
  | nil : Gap []
  | cons {separator gap : List Char} (hseparator : Separator separator) (hgap : Gap gap) :
      Gap (separator ++ gap)

/-! ## Lexemes with gaps before them -/

/-- A lexeme behind a gap. -/
abbrev Item := List Char × Lexeme

/-- The text of the items, with a gap at its end. -/
def text : List Item → List Char → List Char
  | [], last => last
  | (gap, l) :: items, last => gap ++ (l.text.toList ++ text items last)

/-- The lexemes of a text that begins at `p`, each at the place where it stands. -/
def lexemes (p : Position) : List Item → List Lexeme
  | [] => []
  | (gap, l) :: items =>
    let start := p.after gap
    let stop := start.after l.text.toList
    { l with span := ⟨start, stop⟩ } :: lexemes stop items

def IsWordLike (l : Lexeme) : Prop := l.kind = .name ∨ l.kind = .type ∨ l.kind = .number

/-- Gaps between lexemes that can be told apart. -/
structure Spaced (items : List Item) (last : List Char) : Prop where
  gap : ∀ item ∈ items, Gap item.1
  last : Gap last
  spelled : ∀ item ∈ items, item.2.IsSpelled ∧ item.2.kind ≠ .comment
  named : ∀ item ∈ items, item.2.kind = .name → item.2.text ∉ Lexicon.typeKeywords
  -- two words do not touch
  apart : items.IsChain fun a b => IsWordLike a.2 → IsWordLike b.2 → b.1 ≠ []

/-! ## Declarations -/

structure WrittenMember where
  type : PrimitiveType
  name : Lexeme
  length? : Option Lexeme

structure WrittenStruct where
  tag? : Option Lexeme
  name? : Option Lexeme
  members : List WrittenMember

namespace WrittenStruct

/-- The name that a struct goes by. -/
def goesBy? (d : WrittenStruct) : Option Lexeme := d.tag?.or d.name?

/-- The typedef name of a struct that goes by its tag. -/
def alias? (d : WrittenStruct) : Option Lexeme := d.tag?.bind fun _ => d.name?

/-- The names that a struct brings into the scope around it. -/
def names (d : WrittenStruct) : List Lexeme := d.tag?.toList ++ d.name?.toList

end WrittenStruct

inductive WritesDeclarator (m : WrittenMember) : List Lexeme → Prop where
  | scalar (hname : m.name.IsIdent) (hlength : m.length? = none) : WritesDeclarator m [m.name]
  | array {o n c : Lexeme} (hname : m.name.IsIdent) (hlength : m.length? = some n)
      (ho : o.IsOperator "[") (hn : n.kind = .number) (hc : c.IsOperator "]") :
      WritesDeclarator m [m.name, o, n, c]

inductive WritesDeclarators : List WrittenMember → List Lexeme → Prop where
  | last {m : WrittenMember} {v : List Lexeme} (hv : WritesDeclarator m v) :
      WritesDeclarators [m] v
  | more {m : WrittenMember} {ms : List WrittenMember} {c : Lexeme} {v w : List Lexeme}
      (hv : WritesDeclarator m v) (hc : c.IsOperator ",") (hw : WritesDeclarators ms w) :
      WritesDeclarators (m :: ms) (v ++ c :: w)

/-- Members of one type in a row may be declared together. -/
inductive WritesMembers : List WrittenMember → List Lexeme → Prop where
  | nil : WritesMembers [] []
  | cons {ms others : List WrittenMember} {t e : Lexeme} {v w : List Lexeme} (ht : t.kind = .type)
      (htype : ∀ m ∈ ms, m.type.keyword = t.text) (hv : WritesDeclarators ms v)
      (he : e.IsOperator ";") (hw : WritesMembers others w) :
      WritesMembers (ms ++ others) (t :: (v ++ e :: w))

inductive WritesStruct (d : WrittenStruct) : List Lexeme → Prop where
  | intro {typedef? : Option Lexeme} {k o c e : Lexeme} {v : List Lexeme}
      (htypedef : ∀ t ∈ typedef?, t.kind = .name ∧ t.text = "typedef") (hk : k.IsStructKeyword)
      (htag : ∀ n ∈ d.tag?, n.IsIdent) (ho : o.IsOperator SymbolTable.openBrace)
      (hv : WritesMembers d.members v) (hc : c.IsOperator SymbolTable.closeBrace)
      (hname : ∀ n ∈ d.name?, n.IsIdent) (hnamed : d.tag?.isSome ∨ d.name?.isSome)
      (he : e.IsOperator ";") :
      WritesStruct d (typedef?.toList ++
        k :: (d.tag?.toList ++ o :: (v ++ c :: (d.name?.toList ++ [e]))))

inductive WritesAll : List WrittenStruct → List Lexeme → Prop where
  | nil : WritesAll [] []
  | cons {d : WrittenStruct} {ds : List WrittenStruct} {v w : List Lexeme} (hv : WritesStruct d v)
      (hw : WritesAll ds w) : WritesAll (d :: ds) (v ++ w)

end Rendering

end CStruct
