import CStruct.Lexer
import CStruct.Pattern.Engine
import CStruct.Lexeme

/-!
# The lexemes of C declarations

The rules that cut a C source up into comments, numbers, type keywords, names and operators. Each
rule is given both as it is written and as a pattern; `read?_written` and `read?_writtenRules` say
that this is what the engine reads. Blank text and characters that mean nothing here are claimed by
the last two rules, which yield nothing, so no text is left unclaimed.
-/

namespace CStruct.Lexicon

open Pattern

/-- A rule for lexemes: what it claims and which kind of lexeme that makes, if any. -/
structure Entry where
  written : String
  pattern : Pattern
  kind : Option LexemeKind

/-- The patterns of the characters of a text. -/
def chars (text : String) : List Pattern :=
  text.toList.map fun c => .char (.single c)

/-- A block comment ends at the first end marker after its start marker. -/
def blockComment : Entry where
  written := "/\\*(?s:.*?)\\*/"
  pattern := concat (chars "/*" ++ [zeroOrMoreLazy (.char .all)] ++ chars "*/")
  kind := some .comment

/-- A line comment goes on as long as nothing but blanks stands between one line comment and the
next. -/
def lineComments : Entry where
  written := "//.*(?:\\n\\s*//.*)*"
  pattern := concat (chars "//" ++
    [zeroOrMore (.char .inLine),
      zeroOrMore (concat
        (chars "\n" ++ [zeroOrMore (.char .blank)] ++ chars "//" ++ [zeroOrMore (.char .inLine)]))])
  kind := some .comment

def digit : CharSet := .ofRange '0' '9'

def number : Entry where
  written := "[0-9]+"
  pattern := oneOrMore (.char digit)
  kind := some .number

/-- The type keywords. One that another starts with comes after it, so that the longer one is
found. -/
def typeKeywords : List String :=
  ["char", "signed char", "unsigned char", "bool", "short", "unsigned short", "int", "unsigned int",
    "long long", "unsigned long long", "long", "unsigned long", "float", "double"]

/-- A type keyword is no part of a longer word. -/
def typeKeyword : Entry where
  written := "\\b(?:char|signed char|unsigned char|bool|short|unsigned short|int|unsigned int|" ++
    "long long|unsigned long long|long|unsigned long|float|double)\\b"
  pattern := concat [.wordBoundary, oneOf (typeKeywords.map literal), .wordBoundary]
  kind := some .type

def nameStart : CharSet := .ofRanges [('A', 'Z'), ('a', 'z'), ('_', '_')]

def nameRest : CharSet := .ofRanges [('A', 'Z'), ('a', 'z'), ('0', '9'), ('_', '_')]

def name : Entry where
  written := "[A-Za-z_][A-Za-z0-9_]*"
  pattern := concat [.char nameStart, zeroOrMore (.char nameRest)]
  kind := some .name

def operator : Entry where
  written := "[\\[\\]\x7b\x7d;,]"
  pattern := .char (.ofList ['[', ']', '{', '}', ';', ','])
  kind := some .operator

def blanks : Entry where
  written := "\\s+"
  pattern := oneOrMore (.char .blank)
  kind := none

def anything : Entry where
  written := "."
  pattern := .char .inLine
  kind := none

/-- The rules, in the order in which they are tried. -/
def entries : List Entry :=
  [blockComment, lineComments, number, typeKeyword, name, operator, blanks, anything]

/-! ## What is written is what is matched -/

/-- The pattern of all rules: one alternative for each, in a group of its own. -/
def pattern : Pattern :=
  oneOf (entries.mapIdx fun i e => .group (some (Rule.groupName i)) e.pattern)

/-- All rules as they are read. -/
def regex : Regex := .ofPattern pattern

/-- Whether the engine reads these characters as the pattern. -/
def readsAs (cs : List Char) (p : Pattern) : Bool :=
  match Expression.ofChars? cs with
  | .ok e => e.pattern = p && e.pattern.fragment.size ≤ Automaton.sizeLimit
  | .error _ => false

theorem read?_of_readsAs {text : String} {p : Pattern} (h : readsAs text.toList p = true) :
    engine.read? text = .ok (.ofPattern p) := by
  show Regex.ofText? text = _
  rw [Regex.ofText?, Expression.ofText?]
  cases he : Expression.ofChars? text.toList with
  | error fault =>
    rw [readsAs, he] at h
    cases h
  | ok e =>
    rw [readsAs, he] at h
    obtain ⟨hpattern, hsize⟩ := Bool.and_eq_true_iff.1 h
    obtain rfl := of_decide_eq_true hpattern
    exact if_pos (of_decide_eq_true hsize)

theorem read?_written {e : Entry} (h : e ∈ entries) :
    engine.read? e.written = .ok (.ofPattern e.pattern) := by
  have hall : entries.all (fun e => readsAs e.written.toList e.pattern) = true := by
    decide +kernel
  exact read?_of_readsAs (List.all_eq_true.1 hall e h)

/-! ## The lexer -/

/-- The rule of an entry: every match makes a lexeme of the kind, or nothing. -/
def Entry.toRule (e : Entry) : Rule Lexeme where
  written := e.written
  action := fun _ text span => e.kind.map fun kind => ⟨kind, text, span⟩

/-- The lexer for a C source, before it is started. -/
def lexer (source : String) : Lexer engine Lexeme := .ofRules source (entries.map Entry.toRule)

/-- The rules can be added one by one. -/
theorem addRules_entries (source : String) :
    entries.foldlM (fun l e => l.addRule e.written e.toRule.action) (Lexer.ofText source) =
      .ok (lexer source) := by
  have hadd (es rest : List Entry) (hrest : ∀ e ∈ rest, e ∈ entries) :
      rest.foldlM (fun l e => l.addRule e.written e.toRule.action)
          (Lexer.ofRules source (es.map Entry.toRule) : Lexer engine Lexeme) =
        .ok (.ofRules source ((es ++ rest).map Entry.toRule)) := by
    induction rest generalizing es with
    | nil =>
      rw [List.append_nil]
      rfl
    | cons e rest ih =>
      obtain ⟨he, hrest⟩ := List.forall_mem_cons.1 hrest
      have hphase : (Lexer.ofRules source (es.map Entry.toRule) : Lexer engine Lexeme).phase =
        .configuring := rfl
      rw [List.foldlM_cons, Lexer.addRule, if_pos hphase, read?_written he]
      have htail := ih (es ++ [e]) hrest
      rw [List.map_append, List.append_assoc] at htail
      exact htail
  exact hadd [] entries fun _ => id

/-- The characters in which several rules are written together. -/
def ruleChars (rs : List (Rule Lexeme)) : List Char :=
  "|".toList.intercalate (rs.mapIdx fun i r =>
    "(?P<".toList ++ (Rule.groupName i).toList ++ ">".toList ++ r.written.toList ++ ")".toList)

theorem toList_writtenRules (l : Lexer engine Lexeme) :
    l.writtenRules.toList = ruleChars l.rules := by
  rw [Lexer.writtenRules, String.toList_intercalate, ruleChars]
  congr 1
  apply List.ext_getElem?
  intro i
  rw [List.getElem?_map, List.getElem?_mapIdx, List.getElem?_mapIdx, Option.map_map]
  congr 1
  funext r
  show ("(?P<" ++ Rule.groupName i ++ ">" ++ r.written ++ ")").toList = _
  simp only [String.toList_append]

theorem read?_writtenRules (source : String) :
    engine.read? (lexer source).writtenRules = .ok regex := by
  have hreads : readsAs (ruleChars (entries.map Entry.toRule)) pattern = true := by decide +kernel
  apply read?_of_readsAs
  rw [toList_writtenRules]
  exact hreads

/-- The lexer for a C source, just started. -/
def running (source : String) : Lexer engine Lexeme :=
  { lexer source with phase := .running regex }

/-- These rules can always be started. -/
theorem start_lexer (source : String) : (lexer source).start = .ok (running source) := by
  have phase : (lexer source).phase = .configuring := rfl
  have nonempty : ¬(lexer source).rules.isEmpty = true := nofun
  rw [Lexer.start, if_pos phase, if_neg nonempty, read?_writtenRules]
  rfl

/-- The lexemes of a C source, with the lexer at its end. -/
def lexemes (source : String) : List Lexeme × Lexer engine Lexeme :=
  (running source).collect source.toList.length

theorem toEnd_lexer (source : String) : (lexer source).toEnd = .ok (lexemes source) := by
  rw [Lexer.toEnd, start_lexer]
  rfl

end CStruct.Lexicon
