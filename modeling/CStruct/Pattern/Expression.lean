import CStruct.Pattern.Basic

/-!
# Regular expressions

An `Expression` is a pattern as it is written, with every parenthesis and every repetition in its
place. `Expression.pattern` says what it stands for. The names of its groups are read off what is
written: a group keeps its name even if the pattern has no use for it.
-/

namespace CStruct.Pattern

/-- A written pattern. -/
inductive Expression where
  /-- Nothing at all. -/
  | empty
  /-- One character of the set. -/
  | char (set : CharSet)
  /-- One character of the set in a pair of brackets, which are nested `depth` deep. -/
  | brackets (set : CharSet) (depth : Nat)
  /-- A word boundary. -/
  | wordBoundary
  /-- One expression after the other. -/
  | seq (first second : Expression)
  /-- An alternative, and the ones that follow it. -/
  | alt (first second : Expression)
  /-- A repetition of what stands before it. -/
  | rep (least : Nat) (most : Option Nat) (greedy : Bool) (body : Expression)
  /-- Parentheses that hold their body together. -/
  | paren (body : Expression)
  /-- Parentheses that make a group, which may have a name. -/
  | group (name? : Option String) (body : Expression)
  deriving DecidableEq

namespace Expression

/-- The names of the groups, from left to right. -/
def names : Expression → List String
  | .empty | .char _ | .brackets _ _ | .wordBoundary => []
  | .seq e f | .alt e f => e.names ++ f.names
  | .rep _ _ _ e | .paren e => e.names
  | .group name? e => name?.toList ++ e.names

/-- `e` and then `f`, unless that is nothing. -/
def andThen (e f : Expression) : Expression := if f = .empty then e else .seq e f

/-- Whether an expression is a sequence. -/
def isSeq : Expression → Bool
  | .seq _ _ => true
  | _ => false

/-- Whether an expression has alternatives. -/
def isAlt : Expression → Bool
  | .alt _ _ => true
  | _ => false

/-- How deep an expression is nested. A sequence is one level deeper than its deepest part, however
many parts there are; the same goes for alternatives. Repetitions and parentheses are one level
each. -/
def depth : Expression → Nat
  | .empty | .char _ | .wordBoundary => 0
  | .brackets _ depth => depth
  | .seq e f => max (e.depth + 1) (if f.isSeq then f.depth else f.depth + 1)
  | .alt e f => max (e.depth + 1) (if f.isAlt then f.depth else f.depth + 1)
  | .rep _ _ _ e | .paren e | .group _ e => e.depth + 1

/-- How deep an expression may be nested. -/
def depthLimit : Nat := 250

/-- The patterns that the alternatives of an expression stand for. -/
def alternatives : Expression → List Pattern
  | .empty => [.empty]
  | .char set | .brackets set _ => [.char set]
  | .wordBoundary => [.wordBoundary]
  | .seq e f => [(choice e.alternatives).andThen (choice f.alternatives)]
  | .alt e f => choice e.alternatives :: f.alternatives
  | .rep least most greedy e => [(choice e.alternatives).times least most greedy]
  | .paren e => [choice e.alternatives]
  | .group name? e => [.group name? (choice e.alternatives)]

/-- The pattern that an expression stands for. -/
def pattern (e : Expression) : Pattern := choice e.alternatives

end Expression

end CStruct.Pattern
