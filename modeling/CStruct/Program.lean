import CStruct.Layout.Struct
import CStruct.Text.Decimal
import CStruct.TranslationUnit.Documentation

/-!
# Programs

A `Program` holds the structs of a source with their layouts. A source with errors has none, and
neither has one with a member whose type, length or size is out of the question. The members of a
struct are looked at in order, and each for its type, its length and its size; then the struct is
laid out as a whole.
-/

namespace CStruct

/-- Why a source has no layout. -/
inductive ModelError where
  /-- The source has errors. -/
  | parse (errors : List Diagnostic)
  /-- A member has a type whose size is not known. -/
  | unknownType (member typeName : String)
  /-- The length of an array is no positive number that fits into the address space. -/
  | invalidDimension (member dimension : String)
  /-- A member or a struct does not fit into the address space. -/
  | layoutOverflow (name : String)
  deriving DecidableEq

def ModelError.message : ModelError → String
  | parse errors =>
    let first := (errors.head?.map toString).getD ""
    s!"{errors.length} parse error(s), first: {first}"
  | unknownType member typeName => s!"Unknown type `{typeName}` for member `{member}`"
  | invalidDimension member dimension =>
    s!"Invalid array dimension `{dimension}` for member `{member}`"
  | layoutOverflow name => s!"Layout of `{name}` does not fit in the address space"

/-- The length that a dimension stands for: a positive number, with or without a plus sign. -/
def readLength? (text : String) : Option Nat :=
  let digits := match text.toList with
    | '+' :: cs => cs
    | cs => cs
  ((Text.readDecimal? digits).bind fit).filter (0 < ·)

namespace TranslationUnit

/-! ## Members -/

/-- The type of a member. -/
def memberType (u : TranslationUnit) (id : SymbolId) : Except ModelError PrimitiveType :=
  let typeName := (u.typeName? id).getD ""
  match PrimitiveType.ofText? typeName with
  | .ok type => .ok type
  | .error _ => .error (.unknownType (u.symbol id).value typeName)

/-- The length of a member that is an array. -/
def memberLength? (u : TranslationUnit) (id : SymbolId) : Except ModelError (Option Nat) :=
  match (u.symbol id).dimension? with
  | none => .ok none
  | some dimension =>
    match readLength? (u.symbol dimension).value with
    | some n => .ok (some n)
    | none => .error (.invalidDimension (u.symbol id).value (u.symbol dimension).value)

/-- A member with its size. -/
def field (u : TranslationUnit) (d : DataModel) (id : SymbolId) : Except ModelError Field := do
  let type ← u.memberType id
  let arrayLength? ← u.memberLength? id
  match fit (type.size d * arrayLength?.getD 1) with
  | none => .error (.layoutOverflow (u.symbol id).value)
  | some size =>
    .ok
      { name := (u.symbol id).value
        type
        arrayLength?
        span := (u.symbol id).span
        description := (u.description? id).getD ""
        size }

/-! ## Structs -/

/-- A struct with its layout. -/
def struct (u : TranslationUnit) (o : LayoutOptions) (id : SymbolId) :
    Except ModelError Struct := do
  let fields ← (u.members id).mapM (u.field o.dataModel)
  match Layout.ofFields? o fields with
  | none => .error (.layoutOverflow (u.symbol id).value)
  | some layout =>
    .ok
      { layout with
        name := (u.symbol id).value
        alias? := (u.symbol id).alias?.map fun a => (u.symbol a).value
        description := (u.description? id).getD ""
        span := (u.symbol id).span }

end TranslationUnit

/-! ## Programs -/

/-- The structs of a source, in the order in which their names were first declared. -/
structure Program where
  structs : List Struct := []
  deriving DecidableEq

namespace Program

/-- The program of a translation unit, errors or not. Forward declarations and typedef names add no
struct of their own. -/
def ofUnit (u : TranslationUnit) (o : LayoutOptions) : Except ModelError Program := do
  .ok ⟨← u.structs.mapM (u.struct o)⟩

/-- The program of a C source, which must not have errors. -/
def ofSource (source : String) (o : LayoutOptions) : Except ModelError Program :=
  let u := TranslationUnit.ofSource source
  match u.diagnostics.toList.filter Diagnostic.isError with
  | [] => ofUnit u o
  | errors => .error (.parse errors)

/-- The first struct with this name or typedef name. -/
def get? (p : Program) (name : String) : Option Struct :=
  p.structs.find? fun s => s.name == name || s.alias? == some name

end Program

end CStruct
