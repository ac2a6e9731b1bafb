import CStruct.Parse.Expression

/-!
# Declarations

Statements that declare something start with a keyword: `struct`, which declares a struct and may
contain further statements, or a primitive type, which declares members of the struct that is open.

    struct  ::=  "struct" name? ( ";" | "{" statement* "}" name? ";" )
    members ::=  type declarator ( "," declarator )* ";"
    declarator ::=  name ( "[" expression "]" )?

What does not fit is reported, and reading goes on where it can. Where the semicolon of a member is
missing before a closing brace, the brace is left to close the struct.
-/

namespace CStruct.Parse

open SymbolTable

/-! ## Members -/

/-- Reads the length of an array member, whose opening bracket has been passed. -/
def dimension (table : SymbolTable) (name : SymbolId) (s : State) : Option State :=
  (expression table s.fuel 0 s).map fun (length, s) =>
    let s := if (s.symbol length).kind = .literal then s else s.report length .dimensionNotLiteral
    (s.expect table "]").modifyDeclaration name ({ · with dimension? := some length })

/-- Reads a name and its length, if it has one. -/
def declarator (table : SymbolTable) (keyword : SymbolId) (s : State) : Option State :=
  if s.current.kind = .name then
    let s' := (s.define s.token keyword).advance table
    if s'.check "[" then dimension table s.token (s'.advance table) else some s'
  else
    let s := s.report s.token .memberNameMissing
    some (if s.check ";" || s.atClose then s else s.advance table)

/-- Reads declarators separated by commas. Each comma uses up fuel. -/
def declarators (table : SymbolTable) (keyword : SymbolId) (fuel : Nat) (s : State) :
    Option State :=
  match declarator table keyword s with
  | none => none
  | some s =>
    if s.check "," then
      match fuel with
      | 0 => none
      | fuel + 1 => declarators table keyword fuel (s.advance table)
    else
      some s

/-- Reads the members that follow a type keyword. Outside a struct, what follows is read as
statements. -/
def members (table : SymbolTable) (keyword : SymbolId) (s : State) : Option State :=
  if s.isGlobal then
    some (s.report keyword .memberOutsideStruct)
  else
    (declarators table keyword s.fuel s).map fun s =>
      if s.atClose then s.reportExpected ";" else s.expect table ";"

/-! ## Structs -/

/-- Whether a name already stands for a struct in the open scope. -/
def State.declaresStruct (s : State) (name : SymbolId) : Bool :=
  (s.local? (s.symbol name).value).any s.isStruct

/-- Gives a struct its body. -/
def State.setBody (s : State) (struct : SymbolId) (body : ScopeId) : State :=
  s.modifyDeclaration struct ({ · with innerScope? := some body })

/-- Ends a forward declaration. -/
def forwardDeclaration (keyword : SymbolId) (tag? : Option SymbolId) (s : State) :
    Option SymbolId × State :=
  match tag? with
  | none => (none, s.report keyword .structNameMissing)
  | some tag => if s.declaresStruct tag then (none, s) else (some tag, s.define tag keyword)

/-- Reads the typedef name behind the body of a struct, if there is one, and tells which name the
struct goes by. -/
def typedefName (table : SymbolTable) (keyword : SymbolId) (tag? : Option SymbolId)
    (body : ScopeId) (s : State) : Option SymbolId × State :=
  if s.current.kind = .name then
    let name := s.token
    match tag? with
    | some tag => (some tag, (s.defineAlias name keyword tag).advance table)
    | none => (some name, ((s.define name keyword).setBody name body).advance table)
  else
    (tag?, s)

/-- Reads what follows the statements in the body of a struct, and tells which name it goes by. -/
def structEnd (table : SymbolTable) (keyword : SymbolId) (tag? : Option SymbolId)
    (body : ScopeId) (s : State) : Option SymbolId × State :=
  -- The scope is closed first: what follows the brace is read in the scope around the struct.
  let s := s.closeScope.expect table closeBrace
  let s := tag?.elim s fun tag => s.setBody tag body
  let (name?, s) := typedefName table keyword tag? body s
  (name?, (if name?.isNone then s.report keyword .anonymousStruct else s).expect table ";")

/-- Reads a struct after its keyword. `readBody` reads the statements of its body. Answers the name
that the struct goes by, if the statement declares it. -/
def structDeclaration (table : SymbolTable) (readBody : State → Option State)
    (keyword : SymbolId) (s : State) : Option (Option SymbolId × State) :=
  let tag? := if s.current.kind = .name then some s.token else none
  let s := if tag?.isSome then s.advance table else s
  if s.check ";" then
    some (forwardDeclaration keyword tag? (s.advance table))
  else
    let s := tag?.elim s fun tag => s.define tag keyword
    let inside := (s.expect table openBrace).openScope
    (readBody inside).map (structEnd table keyword tag? inside.scope)

/-! ## Statements -/

/-- Passes the keyword of a statement and reserves it. -/
def State.enterStatement (table : SymbolTable) (s : State) : State :=
  ((s.advance table).reserve s.token).modifySymbol s.token ({ · with kind := .statement })

/-- Reads an expression that stands for a statement. -/
def expressionStatement (table : SymbolTable) (s : State) : Option State :=
  (expression table s.fuel 0 s).map fun (top, s) =>
    if (s.symbol top).isExpression then s else s.report top .badExpressionStatement

/-- Reads one statement. Answers the name of the struct that it declares, if it does. -/
def statement (table : SymbolTable) (readBody : State → Option State) (s : State) :
    Option (Option SymbolId × State) :=
  match s.current.role.std with
  | some .struct => structDeclaration table readBody s.token (s.enterStatement table)
  | some .member => (members table s.token (s.enterStatement table)).map fun s => (none, s)
  | none => (expressionStatement table s).map fun s => (none, s)

/-- Reads statements up to a closing brace or the end. Answers the names of the structs that they
declare. Each statement uses up a lexeme and fuel. -/
def statements (table : SymbolTable) (fuel : Nat) (s : State) : Option (List SymbolId × State) :=
  if s.atClose then some ([], s)
  else
    match fuel with
    | 0 => none
    | fuel + 1 =>
      match statement table (fun s => (statements table fuel s).map Prod.snd) s with
      | none => none
      | some (name?, s) =>
        (statements table fuel s).map fun (names, s) => (name?.toList ++ names, s)

/-- Reads a whole source. A brace that closes nothing is reported and passed, and uses up fuel. -/
def program (table : SymbolTable) (fuel : Nat) (s : State) : Option (List SymbolId × State) :=
  match statements table s.fuel s with
  | none => none
  | some (names, s) =>
    if s.check endId then some (names, s)
    else
      match fuel with
      | 0 => none
      | fuel + 1 =>
        let s := (s.report s.token (.unexpected s.current.value)).advance table
        (program table fuel s).map fun (others, s) => (names ++ others, s)

end CStruct.Parse
