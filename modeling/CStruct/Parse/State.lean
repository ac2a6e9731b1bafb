import CStruct.Lexeme
import CStruct.Problem
import CStruct.Scope
import CStruct.Symbol.Table

/-!
# The state of reading a source

A `State` holds the lexemes that are still to be read and everything that has come out of those that
were: the symbols, the scopes, the diagnostics and the comments. One symbol, the token, has been
read and not yet dealt with. The basic steps on a state are to read the next symbol, to change a
symbol and to report a problem.

A lexeme becomes a symbol as soon as it is read. What its spelling means depends on the scope that
is open at that moment, so the order of reading and of opening and closing scopes matters.
-/

namespace CStruct.Parse

open SymbolTable

/-- How far a source has been read, and what has come of it. -/
structure State where
  /-- The lexemes that have not been read. -/
  pending : List Lexeme
  /-- Where the source ends. -/
  endPosition : Position
  symbols : Array Symbol := #[]
  /-- The symbol that is to be dealt with next. -/
  token : SymbolId := 0
  /-- The symbol of the end of the source, once it has been reached. -/
  endSymbol? : Option SymbolId := none
  scopes : Array Scope := #[{}]
  /-- The scope that is open. -/
  scope : ScopeId := 0
  /-- The scopes around the open one, from the inside outwards. -/
  outer : List ScopeId := []
  diagnostics : Diagnostics := {}
  comments : Array Lexeme := #[]

namespace State

/-! ## Symbols -/

/-- The symbol with this number. -/
def symbol (s : State) (id : SymbolId) : Symbol := s.symbols.getD id default

/-- The symbol that is to be dealt with next. -/
def current (s : State) : Symbol := s.symbol s.token

/-- Whether the token was made from the prototype `id`. -/
def check (s : State) (id : String) : Bool := s.current.id == id

/-- Whether nothing can follow the token here: a closing brace, or the end. -/
def atClose (s : State) : Bool := s.check closeBrace || s.check endId

/-- Changes the symbol with this number. -/
def modifySymbol (s : State) (id : SymbolId) (f : Symbol → Symbol) : State :=
  { s with symbols := s.symbols.modify id f }

/-- Changes what is known of a declared name. -/
def modifyDeclaration (s : State) (id : SymbolId) (f : Declaration → Declaration) : State :=
  s.modifySymbol id fun x => { x with declaration? := x.declaration?.map f }

/-- Adds a symbol, which becomes the token. -/
def push (s : State) (x : Symbol) : State :=
  { s with symbols := s.symbols.push x, token := s.symbols.size }

/-! ## Problems -/

/-- Reports a problem with a stretch of the source. -/
def reportAt (s : State) (span : Span) (problem : Problem) : State :=
  { s with diagnostics := s.diagnostics.report (problem.diagnosticAt span) }

/-- Reports a problem with a symbol. -/
def report (s : State) (id : SymbolId) (problem : Problem) : State :=
  s.reportAt (s.symbol id).span problem

/-- Reports that `id` should stand where the token stands. -/
def reportExpected (s : State) (id : String) : State :=
  s.report s.token (.expected id s.current.value)

/-! ## Scopes -/

/-- The scope with this number. -/
def scopeAt (s : State) (id : ScopeId) : Scope := s.scopes.getD id default

/-- Whether no struct body is open. -/
def isGlobal (s : State) : Bool := s.outer.isEmpty

/-- The symbol that a name stands for in the open scope. -/
def local? (s : State) (name : String) : Option SymbolId := (s.scopeAt s.scope).get? name

/-- The symbol that a name stands for in the innermost of the scopes that defines it. -/
def find? (s : State) (name : String) : Option SymbolId :=
  (s.scope :: s.outer).findSome? fun id => (s.scopeAt id).get? name

/-- Lets a name stand for a symbol in the open scope. -/
def bind (s : State) (name : String) (id : SymbolId) : State :=
  { s with scopes := s.scopes.modify s.scope (·.insert name id) }

/-- Opens a scope inside the open one. -/
def openScope (s : State) : State :=
  { s with
    scopes := s.scopes.push { parent? := some s.scope }
    scope := s.scopes.size
    outer := s.scope :: s.outer }

/-- Closes the open scope, unless it is the outermost one. -/
def closeScope (s : State) : State :=
  match s.outer with
  | [] => s
  | scope :: outer => { s with scope, outer }

/-! ## Reading -/

/-- The prototype that a spelling has in the open scope: that of the symbol that it stands for, or
the one in the table, or that of a name. -/
def resolve (table : SymbolTable) (s : State) (name : String) : Prototype :=
  match s.find? name with
  | some id => (s.symbol id).toPrototype
  | none => (table.get? name).getD (table.prototype nameId)

/-- The kind of symbol that a kind of lexeme makes. -/
def kindOf : LexemeKind → SymbolKind
  | .name => .name
  | .type => .type
  | .number => .literal
  | .operator | .comment => .operator

/-- The prototype for a lexeme. Names and types have the meaning that they have in the open scope;
an operator has to be in the table. -/
def prototype? (table : SymbolTable) (s : State) (l : Lexeme) : Option Prototype :=
  match l.kind with
  | .name | .type => some (s.resolve table l.text)
  | .number => some (table.prototype literalId)
  | .operator | .comment => table.get? l.text

/-- Makes a symbol of a lexeme. It becomes the token. -/
def read (table : SymbolTable) (s : State) (l : Lexeme) : State :=
  let made (p : Prototype) : Symbol :=
    { toPrototype := p
      value := l.text
      kind := kindOf l.kind
      span := l.span
      scope? := if l.kind = .name then some s.scope else none }
  match s.prototype? table l with
  | some p => s.push (made p)
  | none => (s.reportAt l.span (.unknownOperator l.text)).push (made { id := l.text })

/-- Reads the end of the source. There is one symbol for it, however often it is read. If its entry
has a scope, so has the symbol. -/
def readEnd (table : SymbolTable) (s : State) : State :=
  match s.endSymbol? with
  | some id => { s with token := id }
  | none =>
    let x : Symbol :=
      { toPrototype := table.prototype endId
        value := endId
        kind := .endOfInput
        span := .empty s.endPosition
        scope? := (table.entry endId).scope? }
    { s.push x with endSymbol? := some s.symbols.size }

/-- Puts the comments that come next aside. -/
def takeComments (s : State) : State :=
  { s with
    pending := s.pending.dropWhile Lexeme.isComment
    comments := s.comments ++ s.pending.takeWhile Lexeme.isComment }

/-- Reads the next symbol, or the end. -/
def advance (table : SymbolTable) (s : State) : State :=
  let s := s.takeComments
  match s.pending with
  | [] => s.readEnd table
  | l :: ls => { s with pending := ls }.read table l

/-- Passes the token, which should be `id`; reports it if it is not. -/
def expect (table : SymbolTable) (id : String) (s : State) : State :=
  (if s.check id then s else s.reportExpected id).advance table

/-- A state in which the lexemes of a source are still to be read. -/
def ofLexemes (lexemes : List Lexeme) (endPosition : Position) : State :=
  { pending := lexemes, endPosition }

end State

end CStruct.Parse
