import CStruct.Text.Position

/-!
# Symbols

Every lexeme that is read becomes a `Symbol`. What a symbol can do in an expression or at the start
of a statement is its `Role`, which it takes over from the `Prototype` for its spelling. Symbols
refer to one another, and to the scopes in which they stand, by number.
-/

namespace CStruct

/-- The number of a symbol: how many symbols were read before it. -/
abbrev SymbolId := Nat

/-- The number of a scope: how many scopes were opened before it. -/
abbrev ScopeId := Nat

/-! ## Roles -/

/-- What a symbol does at the start of an expression. -/
inductive NullDenotation where
  /-- It is an operand by itself. -/
  | itself
  /-- It takes the operand that follows it. -/
  | prefixed
  deriving DecidableEq

/-- What a symbol does between two operands. -/
inductive LeftDenotation where
  /-- It groups with what stands on its left: `a + b + c` is `(a + b) + c`. -/
  | leftAssoc
  /-- It groups with what stands on its right. -/
  | rightAssoc
  deriving DecidableEq

/-- What a symbol does at the start of a statement. -/
inductive StatementDenotation where
  /-- It declares a struct. -/
  | struct
  /-- It declares members of its type. -/
  | member
  deriving DecidableEq

/-- What a symbol can do, and how tightly it binds the operand on its left. -/
structure Role where
  bindingPower : Nat := 0
  nud : Option NullDenotation := none
  led : Option LeftDenotation := none
  std : Option StatementDenotation := none
  deriving DecidableEq, Inhabited

/-- A declared name is an operand and nothing else. -/
def Role.ofDeclared : Role := { nud := some .itself }

/-- What the symbols of one spelling have in common. -/
structure Prototype where
  /-- The spelling, or what kind of symbol the spelling makes. -/
  id : String
  role : Role := {}
  /-- Whether the spelling has been used as a keyword in the scope where it was found. -/
  reserved : Bool := false
  deriving DecidableEq, Inhabited

/-! ## Symbols -/

/-- What a symbol turned out to be. -/
inductive SymbolKind where
  | name
  | literal
  | type
  | operator
  | unary
  | binary
  | statement
  | endOfInput
  deriving DecidableEq, Inhabited

/-- What is known of a declared name. -/
structure Declaration where
  /-- The keyword that the name was declared with. -/
  declaredType : SymbolId
  /-- The scope of a struct's body. Members, forward declarations and typedef names have none. -/
  innerScope? : Option ScopeId := none
  /-- The length of an array member. -/
  dimension? : Option SymbolId := none
  /-- The typedef name of a struct that has a tag as well. -/
  alias? : Option SymbolId := none
  /-- Whether the name is the typedef name of a struct that has a tag as well. -/
  isAlias : Bool := false
  deriving DecidableEq, Inhabited

/-- One symbol of a source text. -/
structure Symbol extends Prototype where
  /-- How the symbol is spelled where it stands. -/
  value : String
  kind : SymbolKind
  span : Span := {}
  /-- The scope that a name stands in. -/
  scope? : Option ScopeId := none
  /-- The operand of a prefix operator, or the left operand of a binary one. -/
  first? : Option SymbolId := none
  /-- The right operand of a binary operator. -/
  second? : Option SymbolId := none
  declaration? : Option Declaration := none
  deriving DecidableEq, Inhabited

namespace Symbol

/-- A symbol that can do nothing and stands nowhere. -/
def ofId (id : String) : Symbol := { id, value := id, kind := .operator }

/-- Whether the symbol is a declared name. -/
def isDeclaration (s : Symbol) : Bool := s.kind == .name && s.declaration?.isSome

/-- Whether an expression with this symbol on top has a meaning. -/
def isExpression (s : Symbol) : Bool :=
  match s.kind with
  | .name | .literal | .type | .unary | .binary => true
  | .operator | .statement | .endOfInput => false

def declaredType? (s : Symbol) : Option SymbolId := s.declaration?.map (·.declaredType)

def innerScope? (s : Symbol) : Option ScopeId := s.declaration?.bind (·.innerScope?)

def dimension? (s : Symbol) : Option SymbolId := s.declaration?.bind (·.dimension?)

def alias? (s : Symbol) : Option SymbolId := s.declaration?.bind (·.alias?)

def isAlias (s : Symbol) : Bool := s.declaration?.any (·.isAlias)

end Symbol

end CStruct
