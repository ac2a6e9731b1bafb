import CStruct.Pattern.Expression
import CStruct.Text.Alphanumeric
import CStruct.Text.Decimal

/-!
# Reading written patterns

Patterns are written as regular expressions:

* a character stands for itself, `.` for any character of the line, `[a-z_]` for a character of a
  set and `[^a-z]` for one outside it; within a set, `&&`, `--` and `~~` join what stands before
  them with what comes next;
* `\s` is a blank, `\b` a word boundary, and `\` takes the special meaning from a character that is
  not a letter or digit;
* `|` separates alternatives;
* `(?: )` holds parts together, `( )` and `(?P<name> )` make a group of them, and in `(?s: )` the
  dot stands for line feeds as well;
* `*`, `+`, `?` and `{n}`, `{n,}`, `{n,m}` repeat what stands before them, lazily with a further
  `?`.

`Expression.ofText?` reads such a text, or tells what is wrong with it. Each step of the readers
uses up some of the text; their fuel is reckoned from its length and never runs out.
-/

namespace CStruct.Pattern

/-- What can be wrong with a written pattern. -/
inductive Fault where
  | nothingToRepeat
  | badCount
  | reversedCount
  | unclosedGroup
  | unopenedGroup
  | badGroupName
  | repeatedGroupName
  | unclosedSet
  | reversedRange
  | unknownEscape
  | tooDeep
  | unsupported
  deriving DecidableEq

def Fault.message : Fault → String
  | nothingToRepeat => "repetition operator missing expression"
  | badCount => "repetition quantifier expects a valid decimal"
  | reversedCount => "invalid repetition count range, the start must be <= the end"
  | unclosedGroup => "unclosed group"
  | unopenedGroup => "unopened group"
  | badGroupName => "invalid capture group name"
  | repeatedGroupName => "duplicate capture group name"
  | unclosedSet => "unclosed character class"
  | reversedRange => "invalid character class range, the start must be <= the end"
  | unknownEscape => "unrecognized escape sequence"
  | tooDeep => "exceeded the maximum number of nested parentheses/brackets"
  | unsupported => "unsupported syntax"

/-! ## Characters -/

/-- The character that `\` and `c` stand for. -/
def escaped (c : Char) : Except Fault Char :=
  match c with
  | 'n' => .ok '\n'
  | 't' => .ok '\t'
  | 'r' => .ok '\r'
  | 'f' => .ok '\x0c'
  | 'v' => .ok '\x0b'
  | 'a' => .ok '\x07'
  | _ =>
    if c.toNat < 0x80 && !c.isAlphanum && c != '<' && c != '>' then .ok c
    else .error .unknownEscape

/-- One part of a set. -/
inductive SetItem where
  | char (c : Char)
  | blank

def SetItem.set : SetItem → CharSet
  | char c => .single c
  | blank => .blank

/-- One character, or the blanks, as a part of a set. -/
def readItem : List Char → Except Fault (SetItem × List Char)
  | [] => .error .unclosedSet
  | '\\' :: 's' :: cs => .ok (.blank, cs)
  | '\\' :: c :: cs => do
    let ch ← escaped c
    .ok (.char ch, cs)
  | ['\\'] => .error .unclosedSet
  | '[' :: _ => .error .unsupported
  | c :: cs => .ok (.char c, cs)

/-- The range from one item to another, each of which has to be a single character. -/
def joinItems : SetItem → SetItem → Except Fault CharSet
  | .char first, .char last =>
    if first ≤ last then .ok (.ofRange first last) else .error .reversedRange
  | _, _ => .error .reversedRange

/-- The set of an item or of a range of characters. A hyphen stands for itself before the closing
bracket or another hyphen. -/
def readRange (cs : List Char) : Except Fault (CharSet × List Char) := do
  let (item, cs) ← readItem cs
  match cs with
  | '-' :: ']' :: _ | '-' :: '-' :: _ => .ok (item.set, cs)
  | '-' :: cs =>
    let (last, cs) ← readItem cs
    let range ← joinItems item last
    .ok (range, cs)
  | _ => .ok (item.set, cs)

/-- How the next two characters in a set join what stands before them with what follows. -/
def readOperation? : List Char → Option ((CharSet → CharSet → CharSet) × List Char)
  | '&' :: '&' :: cs => some (.intersection, cs)
  | '-' :: '-' :: cs => some (.difference, cs)
  | '~' :: '~' :: cs => some (.symmetricDifference, cs)
  | _ => none

/-- The items of a set up to its closing bracket: those before the first operation, and what is
joined with them from left to right. -/
def readItems : Nat → List Char →
    Except Fault (List CharSet × List ((CharSet → CharSet → CharSet) × List CharSet) × List Char)
  | 0, _ => .error .unclosedSet
  | fuel + 1, cs =>
    match cs, readOperation? cs with
    | ']' :: cs, _ => .ok ([], [], cs)
    | _, some (join, cs) => do
      let (items, further, cs) ← readItems fuel cs
      .ok ([], (join, items) :: further, cs)
    | _, none => do
      let (item, cs) ← readRange cs
      let (items, further, cs) ← readItems fuel cs
      .ok (item :: items, further, cs)

/-- Hyphens or a closing bracket at the start of a set stand for themselves. -/
def readFirstItems (cs : List Char) : List CharSet × List Char :=
  match cs.span (· == '-') with
  | ([], ']' :: cs) => ([.single ']'], cs)
  | (hyphens, cs) => (hyphens.map .single, cs)

/-- How deep the items of a set are nested: several of them are one level. -/
def itemsDepth (items : List CharSet) : Nat := if items.length ≤ 1 then 0 else 1

/-- A set in brackets, after the opening one. The brackets and each operation are one level. -/
def readSet (cs : List Char) : Except Fault (Expression × List Char) := do
  let (negated, cs) :=
    match cs with
    | '^' :: cs => (true, cs)
    | _ => (false, cs)
  let (first, cs) := readFirstItems cs
  let (items, further, cs) ← readItems (cs.length + 1) cs
  let items := first ++ items
  let set := further.foldl (fun set (join, items) => join set (.unions items)) (.unions items)
  let depth := further.foldl (fun depth (_, items) => max depth (itemsDepth items) + 1)
    (itemsDepth items)
  .ok (.brackets (if negated then set.negation else set) (depth + 1), cs)

/-! ## Repetition -/

/-- The bounds of a counted repetition, after its opening brace. -/
def readCount (cs : List Char) : Except Fault (Nat × Option Nat × List Char) :=
  let least := cs.takeWhile Char.isDigit
  match Text.readDecimal? least, cs.dropWhile Char.isDigit with
  | some n, '}' :: cs => .ok (n, some n, cs)
  | some n, ',' :: '}' :: cs => .ok (n, none, cs)
  | some n, ',' :: cs =>
    match Text.readDecimal? (cs.takeWhile Char.isDigit), cs.dropWhile Char.isDigit with
    | some m, '}' :: cs => if n ≤ m then .ok (n, some m, cs) else .error .reversedCount
    | _, _ => .error .badCount
  | _, _ => .error .badCount

/-- Whether a repetition is greedy: it is unless a question mark follows. -/
def readGreed : List Char → Bool × List Char
  | '?' :: cs => (false, cs)
  | cs => (true, cs)

/-- Applies the repetitions that follow to the expression before them. -/
def readRepetitions : Nat → Expression → List Char → Except Fault (Expression × List Char)
  | 0, e, cs => .ok (e, cs)
  | fuel + 1, e, cs =>
    let repeated (least : Nat) (most : Option Nat) (cs : List Char) :=
      let (greedy, cs) := readGreed cs
      readRepetitions fuel (.rep least most greedy e) cs
    match cs with
    | '*' :: cs => repeated 0 none cs
    | '+' :: cs => repeated 1 none cs
    | '?' :: cs => repeated 0 (some 1) cs
    | '{' :: cs => do
      let (least, most, cs) ← readCount cs
      repeated least most cs
    | _ => .ok (e, cs)

/-! ## Groups -/

/-- What an opening parenthesis is for. -/
inductive ParenKind where
  /-- To hold parts together. -/
  | plain
  /-- To let the dot take line feeds. -/
  | dotAll
  /-- To make a group, with or without a name. -/
  | group (name? : Option String)

def isNameStart (c : Char) : Bool := Text.isAlphabetic c || c == '_'

def isNameRest (c : Char) : Bool := Text.isAlphanumeric c || ['_', '.', '[', ']'].contains c

/-- What follows an opening parenthesis, up to the parts inside. -/
def readParenKind : List Char → Except Fault (ParenKind × List Char)
  | '?' :: ':' :: cs => .ok (.plain, cs)
  | '?' :: 's' :: ':' :: cs => .ok (.dotAll, cs)
  | '?' :: 'P' :: '<' :: cs =>
    let name := cs.takeWhile (· != '>')
    match name, cs.dropWhile (· != '>') with
    | first :: others, _ :: cs =>
      if isNameStart first && others.all isNameRest then
        .ok (.group (some (String.ofList name)), cs)
      else .error .badGroupName
    | _, _ => .error .badGroupName
  | '?' :: _ => .error .unsupported
  | cs => .ok (.group none, cs)

/-! ## Expressions -/

mutual

/-- Alternatives up to a closing parenthesis or the end. -/
def readAlternatives (fuel : Nat) (dotAll : Bool) (cs : List Char) :
    Except Fault (Expression × List Char) :=
  match fuel with
  | 0 => .ok (.empty, cs)
  | fuel + 1 => do
    let (e, cs) ← readSequence fuel dotAll cs
    match cs with
    | '|' :: cs =>
      let (f, cs) ← readAlternatives fuel dotAll cs
      .ok (.alt e f, cs)
    | _ => .ok (e, cs)

/-- Repeated parts one after another, up to the end of the alternative. -/
def readSequence (fuel : Nat) (dotAll : Bool) (cs : List Char) :
    Except Fault (Expression × List Char) :=
  match fuel with
  | 0 => .ok (.empty, cs)
  | fuel + 1 =>
    match cs with
    | [] | '|' :: _ | ')' :: _ => .ok (.empty, cs)
    | _ => do
      let (e, cs) ← readPart fuel dotAll cs
      let (e, cs) ← readRepetitions (cs.length + 1) e cs
      let (f, cs) ← readSequence fuel dotAll cs
      .ok (e.andThen f, cs)

/-- One part that a repetition can apply to. -/
def readPart (fuel : Nat) (dotAll : Bool) (cs : List Char) :
    Except Fault (Expression × List Char) :=
  match fuel with
  | 0 => .ok (.empty, cs)
  | fuel + 1 =>
    match cs with
    | '(' :: cs => do
      let (kind, cs) ← readParenKind cs
      let inner := match kind with
        | .dotAll => true
        | _ => dotAll
      let (e, cs) ← readAlternatives fuel inner cs
      match kind, cs with
      | .group name?, ')' :: cs => .ok (.group name? e, cs)
      | _, ')' :: cs => .ok (.paren e, cs)
      | _, _ => .error .unclosedGroup
    | '[' :: cs => readSet cs
    | '.' :: cs => .ok (.char (if dotAll then .all else .inLine), cs)
    | '\\' :: 's' :: cs => .ok (.char .blank, cs)
    | '\\' :: 'b' :: cs => .ok (.wordBoundary, cs)
    | '\\' :: c :: cs => do
      let ch ← escaped c
      .ok (.char (.single ch), cs)
    | ['\\'] => .error .unknownEscape
    | '*' :: _ | '+' :: _ | '?' :: _ | '{' :: _ => .error .nothingToRepeat
    | '^' :: _ | '$' :: _ => .error .unsupported
    | c :: cs => .ok (.char (.single c), cs)
    | [] => .ok (.empty, [])

end

/-- Reads a pattern that is written in these characters. No two groups may have the same name, and
there is a limit to how deep it is nested. -/
def Expression.ofChars? (cs : List Char) : Except Fault Expression := do
  let (e, rest) ← readAlternatives (3 * cs.length + 3) false cs
  match rest with
  | [] =>
    if e.depth > Expression.depthLimit then .error .tooDeep
    else if e.names.Nodup then .ok e
    else .error .repeatedGroupName
  | _ => .error .unopenedGroup

/-- Reads a written pattern. -/
def Expression.ofText? (text : String) : Except Fault Expression := ofChars? text.toList

end CStruct.Pattern
