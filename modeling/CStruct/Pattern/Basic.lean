import CStruct.Pattern.CharSet

/-!
# Patterns

A `Pattern` says which stretches of a text fit it. Where several do, the order of its parts decides
which one counts: the first alternative before the second, one more round of a greedy repetition
before no more, and the other way round for a lazy one. `Pattern.Automaton` turns a pattern into a
machine with just these preferences, and `Pattern.Matching` runs it.

Patterns are put together by `andThen`, `choice` and `times`, which leave out what says nothing. So
parts that say the same are the same patterns, and `choice` finds what alternatives have in common.
-/

namespace CStruct

/-- What a stretch of text has to look like. -/
inductive Pattern where
  /-- No text at all. -/
  | empty
  /-- One character of the set. -/
  | char (set : CharSet)
  /-- No text, between a word character and something else. -/
  | wordBoundary
  /-- Text for `first`, then text for `second`. -/
  | seq (first second : Pattern)
  /-- Text for `first` or, failing that, text for `second`. -/
  | alt (first second : Pattern)
  /-- At least `least` and, if there is a bound, at most `most` rounds of `body`: as many as
  possible when greedy, otherwise as few. -/
  | rep (least : Nat) (most : Option Nat) (greedy : Bool) (body : Pattern)
  /-- Text for `body`, which can be told apart from the rest and may have a name. -/
  | group (name? : Option String) (body : Pattern)
  deriving DecidableEq

namespace Pattern

/-- `p` and then `q`. Nothing needs to be said about an empty part, and a part that is a sequence
itself is not set apart. -/
def andThen : Pattern → Pattern → Pattern
  | .empty, q => q
  | .seq p r, q => .seq p (r.andThen q)
  | p, .empty => p
  | p, q => .seq p q

/-- The patterns one after another. -/
def concat : List Pattern → Pattern
  | [] => .empty
  | p :: ps => p.andThen (concat ps)

/-- The characters of `text`, one after another. -/
def literal (text : String) : Pattern :=
  concat (text.toList.map fun c => .char (.single c))

/-- The first of the patterns that leads to a match. No text fits a choice of none. -/
def oneOf : List Pattern → Pattern
  | [] => .char .empty
  | [p] => p
  | p :: ps => .alt p (oneOf ps)

/-- Any number of rounds, as many as possible. -/
def zeroOrMore (p : Pattern) : Pattern := .rep 0 none true p

/-- Any number of rounds, as few as possible. -/
def zeroOrMoreLazy (p : Pattern) : Pattern := .rep 0 none false p

/-- At least one round, as many as possible. -/
def oneOrMore (p : Pattern) : Pattern := .rep 1 none true p

/-! ## What a pattern is like -/

/-- The length of the shortest text that fits. It is left open for a pattern with a set of no
characters in it. -/
def leastLength? : Pattern → Option Nat
  | .empty | .wordBoundary => some 0
  | .char set => if set.isEmpty then none else some 1
  | .seq p q => return (← p.leastLength?) + (← q.leastLength?)
  | .alt p q => return min (← p.leastLength?) (← q.leastLength?)
  | .rep least _ _ p => p.leastLength?.map (least * ·)
  | .group _ p => p.leastLength?

/-- Whether it has to be expected that a pattern matches no text at all. -/
def canBeEmpty (p : Pattern) : Bool := p.leastLength?.getD 0 = 0

/-- Whether no text at all is the only text that a pattern can match. -/
def isAlwaysEmpty : Pattern → Bool
  | .empty | .wordBoundary => true
  | .char _ => false
  | .seq p q | .alt p q => p.isAlwaysEmpty && q.isAlwaysEmpty
  | .rep _ _ _ p | .group _ p => p.isAlwaysEmpty

/-- Whether there is a group in a pattern. -/
def hasGroup : Pattern → Bool
  | .empty | .char _ | .wordBoundary => false
  | .seq p q | .alt p q => p.hasGroup || q.hasGroup
  | .rep _ _ _ p => p.hasGroup
  | .group _ _ => true

/-- Whether a pattern is one certain character. -/
def isLiteral : Pattern → Bool
  | .char set => set.isSingle
  | _ => false

/-- The set of characters that a pattern is. -/
def charSet? : Pattern → Option CharSet
  | .char set => some set
  | _ => none

/-- The alternatives that a pattern is a choice of. -/
def options : Pattern → List Pattern
  | .alt p q => p :: q.options
  | p => [p]

/-- The parts of a pattern that stand one after another. -/
def parts : Pattern → List Pattern
  | .empty => []
  | .seq p q => p.parts ++ q.parts
  | p => [p]

/-- The parts of a pattern, where certain characters in a row make up one unit. -/
def units (p : Pattern) : List (List Pattern) :=
  p.parts.splitBy fun p q => p.isLiteral && q.isLiteral

/-! ## Repetitions -/

/-- A repetition of `p`. Several rounds of nothing are no more than one of them; nothing needs to be
said about no rounds, or about a single one. -/
def times (least : Nat) (most : Option Nat) (greedy : Bool) (p : Pattern) : Pattern :=
  let (least, most) :=
    if p.isAlwaysEmpty then (min least 1, some (min (most.getD 1) 1)) else (least, most)
  match least, most with
  | 0, some 0 => .empty
  | 1, some 1 => p
  | _, _ => .rep least most greedy p

/-! ## Choices -/

/-- What two rows of units start with alike. No two groups are alike. -/
def commonStart : List (List Pattern) → List (List Pattern) → List (List Pattern)
  | u :: us, v :: vs => if u = v && !u.any hasGroup then u :: commonStart us vs else []
  | _, _ => []

/-- The first of the patterns that leads to a match. If they are all certain characters, or all sets
of other numbers of characters, they are one set. -/
def oneOfSets (ps : List Pattern) : Pattern :=
  match ps.mapM charSet? with
  | some (set :: sets) =>
    if sets.all (·.isSingle = set.isSingle) then .char (.unions (set :: sets)) else oneOf ps
  | _ => oneOf ps

/-- A choice of alternatives. One that is a choice itself is not set apart. If each alternative has
two units or more, those that all of them start with are taken out: they are matched once, and where
they end comes before which alternative follows. -/
def choice (ps : List Pattern) : Pattern :=
  match ps.flatMap options with
  | [] => oneOf []
  | [p] => p
  | p :: ps =>
    let start := (ps.map units).foldl commonStart p.units
    if start.isEmpty || (p :: ps).any (·.units.length ≤ 1) then oneOfSets (p :: ps)
    else
      let rest (q : Pattern) := concat (q.units.drop start.length).flatten
      concat (start.flatten ++ [oneOfSets (((p :: ps).map rest).flatMap options)])

end Pattern

end CStruct
