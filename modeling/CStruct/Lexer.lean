import CStruct.PatternEngine
import CStruct.Text.Position

/-!
# Lexers driven by rules

A `Lexer` goes through a text and cuts it up by rules. The patterns of all rules make up one, with a
group for each rule; what patterns mean is up to a `PatternEngine`. Where the engine finds a match,
the first rule whose group took part in it claims the text, and its action decides what becomes of
it. Text that is not matched is passed over. So is one character where the match is empty, so that
the lexer gets on.

Rules are added first, and fixed once the lexer has been started. A lexer that has come to the end
stays there. What a call on a lexer answers is all that the call does: one that fails leaves the
lexer as it was.
-/

namespace CStruct

/-! ## Rules -/

/-- A pattern and what to do with the text that it claims. -/
structure Rule (α : Type) where
  /-- The pattern as it was written. -/
  written : String
  /-- What becomes of claimed text: a result, or nothing. The action is told how often it has been
  called, this call included, the text, and where it stands. -/
  action : Nat → String → Span → Option α
  /-- How often the action has been called. -/
  calls : Nat := 0

/-- The name under which the rule with this number takes part in the pattern of all rules. -/
def Rule.groupName (number : Nat) : String := s!"rule{number}"

/-- What is wrong with the rules of a lexer, or with how it is used. -/
inductive LexError where
  /-- A rule came after the start. -/
  | rulesLocked
  /-- There are no rules to start with. -/
  | noRules
  /-- The written pattern cannot be read, for the cause that the engine gives. -/
  | invalidPattern (written cause : String)
  deriving DecidableEq

def LexError.message : LexError → String
  | .rulesLocked => "Unable to add rules during lexing"
  | .noRules => "Cannot lex without rules"
  | .invalidPattern written cause => s!"Invalid lexer rule `{written}`: {cause}"

/-! ## Lexers -/

/-- How far a lexer has got. -/
inductive LexerPhase (E : PatternEngine) where
  /-- Rules are being added. -/
  | configuring
  /-- The rules are fixed, and have been read as one pattern. -/
  | running (regex : E.Regex)
  | finished

instance {E : PatternEngine} (phase : LexerPhase E) : Decidable (phase = .configuring) :=
  match phase with
  | .configuring => isTrue rfl
  | .running _ | .finished => isFalse nofun

theorem LexerPhase.running_ne_configuring {E : PatternEngine} (regex : E.Regex) :
    (.running regex : LexerPhase E) ≠ .configuring := by
  intro h
  cases h

theorem LexerPhase.finished_ne_configuring {E : PatternEngine} :
    (.finished : LexerPhase E) ≠ .configuring := by
  intro h
  cases h

/-- A text that is being cut up by rules into values of type `α`. -/
structure Lexer (E : PatternEngine) (α : Type) where
  source : List Char
  rules : List (Rule α) := []
  phase : LexerPhase E := .configuring
  /-- How many characters lie before the place where the search for a match goes on. -/
  offset : Nat := 0
  /-- The position behind the text that has been passed. -/
  position : Position := {}

namespace Lexer

variable {E : PatternEngine} {α : Type}

/-- A lexer for a text, without rules. -/
def ofText (text : String) : Lexer E α := { source := text.toList }

/-- A lexer for a text, with rules. -/
def ofRules (text : String) (rs : List (Rule α)) : Lexer E α :=
  { (ofText text : Lexer E α) with rules := rs }

/-! ### Rules of a lexer -/

/-- Adds a rule behind those that are there. -/
def addRule (l : Lexer E α) (written : String) (action : Nat → String → Span → Option α) :
    Except LexError (Lexer E α) :=
  if l.phase = .configuring then
    match E.read? written with
    | .ok _ => .ok { l with rules := l.rules ++ [{ written, action }] }
    | .error cause => .error (.invalidPattern written cause)
  else
    .error .rulesLocked

/-- The pattern of all rules as it is written: one alternative for each, in a group of its own. -/
def writtenRules (l : Lexer E α) : String :=
  "|".intercalate (l.rules.mapIdx fun i r => s!"(?P<{Rule.groupName i}>{r.written})")

/-- Fixes the rules. Their pattern is read as a whole. -/
def start (l : Lexer E α) : Except LexError (Lexer E α) :=
  if l.phase = .configuring then
    if l.rules.isEmpty then .error .noRules
    else
      match E.read? l.writtenRules with
      | .ok regex => .ok { l with phase := .running regex }
      | .error cause => .error (.invalidPattern l.writtenRules cause)
  else
    .ok l

/-! ### Running -/

/-- What a step of a lexer comes to. -/
inductive Outcome (α : Type) where
  /-- There is nothing more to claim. -/
  | ended
  /-- Text was passed without a result. -/
  | passed
  /-- The action of a rule gave a result. -/
  | yielded (result : α)

/-- What a step comes to whose action has given an answer. -/
def Outcome.ofAnswer : Option α → Outcome α
  | some result => .yielded result
  | none => .passed

/-- The first of so many rules whose group took part in a match. -/
def claim? (count : Nat) (m : Match) : Option Nat :=
  (List.range count).find? fun i => m.groups.contains (Rule.groupName i)

/-- The text from where the lexer stands up to an offset. -/
def textTo (l : Lexer E α) (offset : Nat) : List Char := (l.source.take offset).drop l.offset

/-- The lexer when it has passed the text up to an offset. -/
def moveTo (l : Lexer E α) (offset : Nat) : Lexer E α :=
  { l with offset, position := l.position.after (l.textTo offset) }

/-- The lexer when the action of a rule has been called once more. -/
def counting (l : Lexer E α) (number : Nat) : Lexer E α :=
  { l with rules := l.rules.modify number fun r => { r with calls := r.calls + 1 } }

/-- The lexer at its end. The position stays where it is. -/
def finish (l : Lexer E α) : Lexer E α := { l with phase := .finished, offset := l.source.length }

/-- Hands the text up to `stop` to the action of a rule. -/
def fire (l : Lexer E α) (number stop : Nat) : Lexer E α × Outcome α :=
  let span : Span := ⟨l.position, (l.moveTo stop).position⟩
  let answer? := l.rules[number]?.bind fun r =>
    r.action (r.calls + 1) (String.ofList (l.textTo stop)) span
  ((l.moveTo stop).counting number, .ofAnswer answer?)

/-- Goes on to the next match and past it. -/
def step (l : Lexer E α) (regex : E.Regex) : Lexer E α × Outcome α :=
  match E.find? regex l.source l.offset with
  | none => (l.finish, .ended)
  | some m =>
    let l := l.moveTo m.start
    if m.start < m.stop then
      match claim? l.rules.length m with
      | some number => l.fire number m.stop
      | none => (l.finish, .ended)
    else if m.start < l.source.length then (l.moveTo (m.start + 1), .passed)
    else (l.finish, .ended)

/-- How much of the text has not been dealt with. -/
def left (l : Lexer E α) : Nat := l.source.length - l.offset

/-- Steps on to the next result or to the end. Each step before that passes at least one character,
so there are no more steps than characters `left`. -/
def advance (regex : E.Regex) : (left : Nat) → Lexer E α → Option α × Lexer E α
  | 0, l => (none, l.finish)
  | left + 1, l =>
    match l.step regex with
    | (l, .ended) => (none, l)
    | (l, .yielded result) => (some result, l)
    | (l, .passed) => advance regex left l

/-- The next result, or `none` at the end. -/
def next (l : Lexer E α) : Option α × Lexer E α :=
  match l.phase with
  | .running regex => advance regex l.left l
  | .configuring | .finished => (none, l)

/-- The next result, or `none` at the end; starts the lexer first if need be. -/
def lex (l : Lexer E α) : Except LexError (Option α × Lexer E α) :=
  l.start.map next

/-- All results from here on, with the lexer at its end. Each passes at least one of the characters
`left`. -/
def collect : (left : Nat) → Lexer E α → List α × Lexer E α
  | 0, l => ([], l.next.2)
  | left + 1, l =>
    match l.next with
    | (none, l) => ([], l)
    | (some result, l) =>
      let (results, l) := collect left l
      (result :: results, l)

/-- All results from here on, with the lexer at its end. -/
def toEnd (l : Lexer E α) : Except LexError (List α × Lexer E α) :=
  l.start.map fun l => collect l.left l

end Lexer

end CStruct
