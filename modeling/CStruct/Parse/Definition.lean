import CStruct.Parse.State

/-!
# Giving names a meaning

A name is defined in the scope that is open. Defining it again is worth a warning, and the new
meaning holds from then on; only the definition of a struct after its forward declaration is in
order. A keyword is reserved in the scope where it is used.
-/

namespace CStruct.Parse.State

/-- The spelling of the keyword that declares structs. -/
def structKeyword : String := "struct"

/-- Whether a symbol is spelled like the keyword that declares structs. -/
def isStructKeyword (s : State) (id : SymbolId) : Bool := (s.symbol id).value == structKeyword

/-- Whether a symbol is a name that was declared as a struct. -/
def isStruct (s : State) (id : SymbolId) : Bool :=
  (s.symbol id).isDeclaration && (s.symbol id).declaredType?.any s.isStructKeyword

/-- Whether a declaration with the keyword `type` completes the forward declaration of `existing`.
-/
def completesForward (s : State) (existing type : SymbolId) : Bool :=
  s.isStruct existing && (s.symbol existing).innerScope?.isNone && !(s.symbol existing).isAlias &&
    s.isStructKeyword type

/-- Makes a symbol a name declared in the open scope. -/
def declare (s : State) (name type : SymbolId) : State :=
  s.modifySymbol name fun x =>
    { x with
      kind := .name
      role := .ofDeclared
      reserved := false
      scope? := some s.scope
      declaration? := some { declaredType := type } }

/-- Reports that a name has a meaning already. -/
def warnDefined (s : State) (name : SymbolId) : State :=
  s.report name (.alreadyDefined (s.symbol name).value)

/-- Defines a name, declared with the keyword `type`, in the open scope. -/
def define (s : State) (name type : SymbolId) : State :=
  let value := (s.symbol name).value
  let known := (s.local? value).any fun existing => !s.completesForward existing type
  let s := if known then s.warnDefined name else s
  (s.declare name type).bind value name

/-- Defines the typedef name of a struct. One that is spelled like the struct is tied to it without
taking its place in the scope. -/
def defineAlias (s : State) (name type struct : SymbolId) : State :=
  let value := (s.symbol name).value
  let existing? := s.local? value
  let s := if existing?.isSome then s.warnDefined name else s
  let s := s.declare name type
  let s := s.modifyDeclaration name ({ · with isAlias := true })
  let s := s.modifyDeclaration struct ({ · with alias? := some name })
  if existing? = some struct then s else s.bind value name

/-- Reserves a keyword in the open scope, where it may have been a name. -/
def reserve (s : State) (keyword : SymbolId) : State :=
  let value := (s.symbol keyword).value
  let bound (s : State) : State :=
    (s.modifySymbol keyword ({ · with reserved := true })).bind value keyword
  match s.local? value with
  | none => bound s
  | some existing =>
    if (s.symbol existing).reserved then s
    else if (s.symbol existing).kind = .name then bound (s.warnDefined keyword)
    else bound s

end CStruct.Parse.State
