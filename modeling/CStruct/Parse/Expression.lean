import CStruct.Parse.Definition

/-!
# Expressions

Expressions are read by binding powers. Reading with a bound starts with an operand and goes on as
long as the token binds more tightly than the bound. The symbol on top of an expression stands for
it.

A table in which the end of the input binds, or is a prefix operator, makes expressions that never
end. `expression` is given fuel for that reason: every step uses up a lexeme or meets the end, so
with more fuel than lexemes it answers unless the expression has no end.
-/

namespace CStruct.Parse

namespace State

/-- Makes a symbol a prefix operator with its operand. -/
def setOperand (s : State) (operator operand : SymbolId) : State :=
  s.modifySymbol operator ({ · with first? := some operand, kind := .unary })

/-- Makes a symbol a binary operator with its operands. -/
def setOperands (s : State) (operator left right : SymbolId) : State :=
  s.modifySymbol operator ({ · with first? := some left, second? := some right, kind := .binary })

end State

/-- How an expression with a bound is read: its top symbol, and the state after it. -/
abbrev ExpressionReader := Nat → State → Option (SymbolId × State)

/-- Takes a symbol, which has been passed, as the start of an expression. -/
def nullDenotation (read : ExpressionReader) (token : SymbolId) (s : State) : Option State :=
  match (s.symbol token).role.nud with
  | some .itself => some s
  | some .prefixed =>
    (read SymbolTable.prefixPower (s.reserve token)).map fun (operand, s) =>
      s.setOperand token operand
  | none => some (s.report token .undefined)

/-- Reads the right operand of a binary operator, whose operators bind more tightly than `bound`. -/
def rightOperand (read : ExpressionReader) (token left : SymbolId) (bound : Nat) (s : State) :
    Option State :=
  (read bound s).map fun (right, s) => s.setOperands token left right

/-- Takes a symbol, which has been passed, as an operator after the operand `left`. What binds as
tightly as the operator belongs to its right operand only if it groups to the right. -/
def leftDenotation (read : ExpressionReader) (token left : SymbolId) (s : State) : Option State :=
  let role := (s.symbol token).role
  match role.led with
  | some .leftAssoc => rightOperand read token left role.bindingPower s
  | some .rightAssoc => rightOperand read token left (role.bindingPower - 1) s
  | none => some (s.report token .missingOperator)

mutual

/-- Reads an expression whose operators bind more tightly than `bound`. -/
def expression (table : SymbolTable) (fuel : Nat) (bound : Nat) (s : State) :
    Option (SymbolId × State) :=
  match fuel with
  | 0 => none
  | fuel + 1 =>
    match nullDenotation (expression table fuel) s.token (s.advance table) with
    | none => none
    | some s' => operators table fuel bound s.token s'

/-- Goes on with an expression as long as operators follow its part `left`. -/
def operators (table : SymbolTable) (fuel : Nat) (bound : Nat) (left : SymbolId) (s : State) :
    Option (SymbolId × State) :=
  if bound < s.current.role.bindingPower then
    match fuel with
    | 0 => none
    | fuel + 1 =>
      match leftDenotation (expression table fuel) s.token left (s.advance table) with
      | none => none
      | some s' => operators table fuel bound s.token s'
  else
    some (left, s)

end

/-- Enough fuel for the lexemes that are left and the token. -/
def State.fuel (s : State) : Nat := s.pending.length + 2

end CStruct.Parse
