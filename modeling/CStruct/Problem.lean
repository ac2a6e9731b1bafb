import CStruct.Diagnostic

/-!
# What can be wrong with a source

A `Problem` is the cause of a diagnostic: what was met where something else was needed. Its severity
and its wording follow from the cause.
-/

namespace CStruct

/-- What can be wrong with a source. -/
inductive Problem where
  /-- The name has a meaning in this scope already. -/
  | alreadyDefined (name : String)
  /-- The symbol cannot start an expression. -/
  | undefined
  /-- The symbol cannot join two operands. -/
  | missingOperator
  /-- The expression that stands for a statement says nothing. -/
  | badExpressionStatement
  /-- The symbol `wanted` has to stand where `actual` was met. -/
  | expected (wanted actual : String)
  /-- Nothing that is open can be closed here. -/
  | unexpected (actual : String)
  /-- The operator is not in the symbol table. -/
  | unknownOperator (spelling : String)
  /-- A forward declaration names no struct. -/
  | structNameMissing
  /-- A struct has neither a tag nor a typedef name. -/
  | anonymousStruct
  /-- A member stands outside every struct. -/
  | memberOutsideStruct
  /-- A declarator has to start with a name. -/
  | memberNameMissing
  /-- The length of an array has to be an integer literal. -/
  | dimensionNotLiteral
  deriving DecidableEq

namespace Problem

/-- A name defined again is taken to be meant; everything else is an error. -/
def severity : Problem → Severity
  | alreadyDefined _ => .warning
  | _ => .error

def message : Problem → String
  | alreadyDefined name => s!"Already defined: {name}"
  | undefined => "Undefined"
  | missingOperator => "Missing operator"
  | badExpressionStatement => "Bad expression statement."
  | expected wanted actual => s!"Expected: \"{wanted}\" Actual: \"{actual}\""
  | unexpected actual => s!"Unexpected: \"{actual}\""
  | unknownOperator spelling => s!"Unknown operator: \"{spelling}\""
  | structNameMissing => "Expected a struct name"
  | anonymousStruct => "Anonymous struct requires a typedef name"
  | memberOutsideStruct => "Members must be declared inside a struct"
  | memberNameMissing => "Expected a new variable name"
  | dimensionNotLiteral => "Array dimension must be an integer literal"

/-- The remark that the problem was met at `span`. -/
def diagnosticAt (problem : Problem) (span : Span) : Diagnostic :=
  ⟨span, problem.severity, problem.message⟩

end Problem

end CStruct
