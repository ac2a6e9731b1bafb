import CStruct.Parse.Progress
import CStruct.Lexicon

/-!
# Translation units

A `TranslationUnit` is all that can be told of a source text: its symbols, its scopes, the structs
declared in it, its comments and what is wrong with it. Every C source has one, whatever is wrong
with it: `ofSource` needs no way to fail, because reading with the table of C always ends.
-/

namespace CStruct

/-- What can be told of a source text. -/
structure TranslationUnit where
  /-- The structs that are declared outside all others, in the order of their declarations. -/
  declarations : List SymbolId := []
  scopes : Array Scope := #[{}]
  /-- The symbols, in the order in which they were read. -/
  symbols : Array Symbol := #[]
  diagnostics : Diagnostics := {}
  /-- The comments, in the order in which they stand. -/
  comments : Array Lexeme := #[]
  deriving DecidableEq, Inhabited

namespace TranslationUnit

/-! ## Symbols and scopes -/

/-- The scope of the whole source. -/
def rootScope : ScopeId := 0

/-- The symbol with this number. -/
def symbol (u : TranslationUnit) (id : SymbolId) : Symbol := u.symbols.getD id default

/-- The scope with this number. -/
def scope (u : TranslationUnit) (id : ScopeId) : Scope := u.scopes.getD id default

/-- The spelling of the keyword that a name was declared with. -/
def typeName? (u : TranslationUnit) (id : SymbolId) : Option String :=
  (u.symbol id).declaredType?.map fun type => (u.symbol type).value

/-- The declared name that a spelling stands for in one scope. -/
def lookup? (u : TranslationUnit) (scope : ScopeId) (name : String) : Option SymbolId :=
  ((u.scope scope).get? name).filter fun id => (u.symbol id).isDeclaration

/-- The declared names of a scope. -/
def declared (u : TranslationUnit) (scope : ScopeId) : List SymbolId :=
  (u.scope scope).definitions.values.filter fun id => (u.symbol id).isDeclaration

/-- Whether a symbol was declared as a struct. -/
def isStruct (u : TranslationUnit) (id : SymbolId) : Bool :=
  u.typeName? id == some Parse.State.structKeyword

/-- The structs with a body, each under the name that it goes by. -/
def structs (u : TranslationUnit) : List SymbolId :=
  (u.declared rootScope).filter fun id =>
    !(u.symbol id).isAlias && (u.symbol id).innerScope?.isSome && u.isStruct id

/-- The members of a struct, in the order of their declarations. -/
def members (u : TranslationUnit) (struct : SymbolId) : List SymbolId :=
  match (u.symbol struct).innerScope? with
  | some scope => u.declared scope
  | none => []

def hasErrors (u : TranslationUnit) : Bool := u.diagnostics.hasErrors

/-! ## Reading a source -/

/-- What can be told of a source that has been read. -/
def ofState (declarations : List SymbolId) (s : Parse.State) : TranslationUnit where
  declarations := declarations
  scopes := s.scopes
  symbols := s.symbols
  diagnostics := s.diagnostics
  comments := s.comments

/-- The translation unit of a sequence of lexemes that ends at `endPosition`, read with the symbols
of `table`. There is none if reading never ends, which takes a table in which the end of the input
binds, is a prefix operator, or goes by another name. -/
def ofLexemes? (table : SymbolTable) (lexemes : List Lexeme) (endPosition : Position) :
    Option TranslationUnit :=
  let s := (Parse.State.ofLexemes lexemes endPosition).advance table
  (Parse.program table s.fuel s).map fun (names, s) => ofState names s

/-- The translation unit of a text that a lexer is about to go through. -/
def ofLexer? {E : PatternEngine} (table : SymbolTable) (lexer : Lexer E Lexeme) :
    Except LexError (Option TranslationUnit) :=
  lexer.toEnd.map fun (lexemes, lexer) => ofLexemes? table lexemes lexer.position

theorem isSome_ofLexemes? {table : SymbolTable} (h : table.Ends) (lexemes : List Lexeme)
    (endPosition : Position) : (ofLexemes? table lexemes endPosition).isSome = true := by
  obtain ⟨names, s, hs, -⟩ := Parse.program_isSome h _
    (Parse.sound_ofLexemes table lexemes endPosition)
    (Nat.le_of_lt (Parse.State.left_lt_fuel _))
  rw [ofLexemes?, hs]
  rfl

/-- The translation unit of a sequence of lexemes, read with a table in which the end of the input
stops everything. -/
def ofLexemes {table : SymbolTable} (h : table.Ends) (lexemes : List Lexeme)
    (endPosition : Position) : TranslationUnit :=
  (ofLexemes? table lexemes endPosition).get (isSome_ofLexemes? h lexemes endPosition)

/-- The translation unit of a C source. -/
def ofSource (source : String) : TranslationUnit :=
  let (lexemes, lexer) := Lexicon.lexemes source
  ofLexemes SymbolTable.ends_cStructs lexemes lexer.position

end TranslationUnit

end CStruct
