import CStruct.Lexicon
import Mathlib.Data.List.MinMax

/-!
# A direct scanner for C sources

The scanner looks at the characters ahead and at the one before them, and says what stands there. It
needs no patterns. Each kind of text has a function that measures it: `none` where such text does not
begin. `pieceAt` asks them in their order, and `scan` goes on from piece to piece.
-/

namespace CStruct.Scanner

/-! ## Measuring a piece of text -/

def startsWith (marker : String) (text : List Char) : Bool := marker.toList.isPrefixOf text

/-- How far it is to the end of the first end marker of a block comment. -/
def blockEnd? : List Char → Option Nat
  | [] => none
  | c :: cs => if startsWith "*/" (c :: cs) then some 2 else (blockEnd? cs).map (· + 1)

/-- A block comment, which needs an end marker behind its start marker. -/
def blockComment? (text : List Char) : Option Nat :=
  if startsWith "/*" text then (blockEnd? (text.drop 2)).map (· + 2) else none

/-- How long a run of characters is. -/
def runLength (p : Char → Bool) (cs : List Char) : Nat := (cs.takeWhile p).length

theorem drop_runLength (p : Char → Bool) (cs : List Char) :
    cs.drop (runLength p cs) = cs.dropWhile p := by
  calc cs.drop (runLength p cs)
      = (cs.takeWhile p ++ cs.dropWhile p).drop (cs.takeWhile p).length := by
        rw [List.takeWhile_append_dropWhile, runLength]
    _ = cs.dropWhile p := List.drop_left

theorem runLength_add (p : Char → Bool) (cs : List Char) :
    runLength p cs + (cs.dropWhile p).length = cs.length := by
  rw [runLength, ← List.length_append, List.takeWhile_append_dropWhile]

def inLine (c : Char) : Bool := c != '\n'

/-- What stands behind the start marker of the line comment that goes on with one that is about to
read `cs`: nothing but blanks may stand between the end of the line and the marker. -/
def commentBelow? (cs : List Char) : Option (List Char) :=
  match cs.dropWhile inLine with
  | [] => none
  | _ :: below =>
    let text := below.dropWhile Text.isBlank
    if startsWith "//" text then some (text.drop 2) else none

theorem commentBelow?_eq_some_iff {cs further : List Char} :
    commentBelow? cs = some further ↔
      ∃ ch below, cs.dropWhile inLine = ch :: below ∧
        startsWith "//" (below.dropWhile Text.isBlank) = true ∧
        (below.dropWhile Text.isBlank).drop 2 = further := by
  unfold commentBelow?
  cases cs.dropWhile inLine with
  | nil => exact ⟨nofun, nofun⟩
  | cons ch below =>
    dsimp only
    by_cases hslash : startsWith "//" (below.dropWhile Text.isBlank) = true
    · rw [if_pos hslash, Option.some_inj]
      refine ⟨fun h => ⟨ch, below, rfl, hslash, h⟩, ?_⟩
      rintro ⟨_, _, heq, -, h⟩
      cases heq
      exact h
    · rw [if_neg hslash]
      refine ⟨nofun, ?_⟩
      rintro ⟨_, _, heq, h, -⟩
      cases heq
      exact absurd h hslash

theorem suffix_of_mem_commentBelow? {cs further : List Char} (h : further ∈ commentBelow? cs) :
    further <:+ cs := by
  obtain ⟨ch, below, hline, -, rfl⟩ := commentBelow?_eq_some_iff.1 h
  have hbelow : below <:+ cs :=
    (List.suffix_cons ch below).trans (hline ▸ List.dropWhile_suffix inLine)
  exact ((List.drop_suffix 2 _).trans (List.dropWhile_suffix Text.isBlank)).trans hbelow

theorem length_of_mem_commentBelow? {cs further : List Char} (h : further ∈ commentBelow? cs) :
    further.length < cs.length := by
  obtain ⟨ch, below, hline, -, rfl⟩ := commentBelow?_eq_some_iff.1 h
  have hle := (List.dropWhile_suffix (l := cs) inLine).length_le
  have hle' := (List.dropWhile_suffix (l := below) Text.isBlank).length_le
  rw [hline, List.length_cons] at hle
  rw [List.length_drop]
  omega

/-- How far it is from the start marker of a line comment to the end of the last one that goes on
with it. -/
def lineEnd (cs : List Char) : Nat :=
  match h : commentBelow? cs with
  | none => runLength inLine cs
  | some further =>
    have : further.length < cs.length := length_of_mem_commentBelow? h
    cs.length - further.length + lineEnd further
termination_by cs.length

theorem lineEnd_of_none {cs : List Char} (h : commentBelow? cs = none) :
    lineEnd cs = runLength inLine cs := by
  rw [lineEnd]
  split
  · rfl
  · simp_all

theorem lineEnd_of_some {cs further : List Char} (h : commentBelow? cs = some further) :
    lineEnd cs = cs.length - further.length + lineEnd further := by
  rw [lineEnd]
  split
  · simp_all
  · simp_all

/-- Line comments in a row. -/
def lineComments? (text : List Char) : Option Nat :=
  if startsWith "//" text then some (lineEnd (text.drop 2) + 2) else none

/-- A run of at least one character. -/
def run? (p : Char → Bool) (cs : List Char) : Option Nat :=
  if runLength p cs = 0 then none else some (runLength p cs)

/-- Whether a word stands at the start of a text and does not go on. -/
def standsAlone (text : List Char) (word : String) : Bool :=
  startsWith word text && !(text.drop word.length).head?.any Text.isWordChar

/-- The longest type keyword that stands at the start of a text, unless it is a part of a longer
word. -/
def keyword? (before : Option Char) (text : List Char) : Option String :=
  if before.any Text.isWordChar then none
  else (Lexicon.typeKeywords.filter (standsAlone text)).argmax String.length

def isNameStart (c : Char) : Bool := c.isAlpha || c == '_'

def isNameRest (c : Char) : Bool := c.isAlphanum || c == '_'

def name? : List Char → Option Nat
  | [] => none
  | c :: cs => if isNameStart c then some (runLength isNameRest cs + 1) else none

def operators : List Char := ['{', '}', '[', ']', ';', ',']

def operator? : List Char → Option Nat
  | [] => none
  | c :: _ => if c ∈ operators then some 1 else none

/-! ## Going through a text -/

/-- The kinds of text that may stand at the start of a text, in the order in which they are tried.
Blanks make no lexeme. -/
def measures (before : Option Char) (text : List Char) : List (Option LexemeKind × Option Nat) :=
  [(some .comment, blockComment? text),
    (some .comment, lineComments? text),
    (some .number, run? Char.isDigit text),
    (some .type, (keyword? before text).map String.length),
    (some .name, name? text),
    (some .operator, operator? text),
    (none, run? Text.isBlank text)]

/-- What stands at the start of a text, and how long it is. Any other character is passed over. -/
def pieceAt (before : Option Char) (text : List Char) : Option LexemeKind × Nat :=
  ((measures before text).findSome? fun (kind?, n?) => n?.map (kind?, ·)).getD (none, 1)

/-- The letters, as ranges of code points. -/
theorem isAlpha_iff {c : Char} : c.isAlpha = true ↔
    'A'.val ≤ c.val ∧ c.val ≤ 'Z'.val ∨ 'a'.val ≤ c.val ∧ c.val ≤ 'z'.val := by
  show (decide ('A'.val ≤ c.val ∧ c.val ≤ 'Z'.val) ||
    (decide ('a'.val ≤ c.val) && decide (c.val ≤ 'z'.val))) = true ↔ _
  simp only [Bool.or_eq_true, Bool.and_eq_true, decide_eq_true_eq]

theorem pos_of_mem_run? {p : Char → Bool} {cs : List Char} {n : Nat} (h : n ∈ run? p cs) :
    0 < n := by
  unfold run? at h
  split at h
  · cases h
  · cases h
    omega

theorem length_pos_of_mem_typeKeywords {word : String} (h : word ∈ Lexicon.typeKeywords) :
    0 < word.length := by
  have hall : ∀ word ∈ Lexicon.typeKeywords, 0 < word.length := by decide
  exact hall word h

theorem mem_typeKeywords_of_mem_keyword? {before : Option Char} {text : List Char} {word : String}
    (h : word ∈ keyword? before text) :
    word ∈ Lexicon.typeKeywords ∧ standsAlone text word = true := by
  unfold keyword? at h
  split at h
  · cases h
  · exact List.mem_filter.1 (List.argmax_mem h)

theorem pos_of_mem_measures {before : Option Char} {text : List Char}
    {m : Option LexemeKind × Option Nat} (hm : m ∈ measures before text) {n : Nat} (hn : n ∈ m.2) :
    0 < n := by
  simp only [measures, List.mem_cons, List.not_mem_nil, or_false] at hm
  rcases hm with rfl | rfl | rfl | rfl | rfl | rfl | rfl
  · unfold blockComment? at hn
    split at hn
    · obtain ⟨k, -, rfl⟩ := Option.map_eq_some_iff.1 hn
      omega
    · cases hn
  · unfold lineComments? at hn
    split at hn
    · cases hn
      omega
    · cases hn
  · exact pos_of_mem_run? hn
  · obtain ⟨word, hword, rfl⟩ := Option.map_eq_some_iff.1 hn
    exact length_pos_of_mem_typeKeywords (mem_typeKeywords_of_mem_keyword? hword).1
  · unfold name? at hn
    split at hn
    · cases hn
    · split at hn
      · cases hn
        omega
      · cases hn
  · unfold operator? at hn
    split at hn
    · cases hn
    · split at hn
      · cases hn
        omega
      · cases hn
  · exact pos_of_mem_run? hn

/-- What stands at the start of a text has been measured, or it is a character to pass over. -/
theorem pieceAt_cases (before : Option Char) (text : List Char) :
    pieceAt before text = (none, 1) ∨
      ∃ m ∈ measures before text, ∃ n ∈ m.2, pieceAt before text = (m.1, n) := by
  unfold pieceAt
  cases h : (measures before text).findSome? fun (kind?, n?) => n?.map (kind?, ·) with
  | none => exact .inl rfl
  | some piece =>
    obtain ⟨m, hm, hpiece⟩ := List.exists_of_findSome?_eq_some h
    obtain ⟨n, hn, rfl⟩ := Option.map_eq_some_iff.1 hpiece
    exact .inr ⟨m, hm, n, hn, rfl⟩

/-- Going on from piece to piece comes to an end. -/
theorem pieceAt_pos (before : Option Char) (text : List Char) : 0 < (pieceAt before text).2 := by
  rcases pieceAt_cases before text with heq | ⟨m, hm, n, hn, heq⟩
  · rw [heq]
    exact Nat.one_pos
  · rw [heq]
    exact pos_of_mem_measures hm hn

/-! ### No piece goes beyond the text -/

theorem length_le_of_startsWith {marker : String} {text : List Char}
    (h : startsWith marker text = true) : marker.length ≤ text.length :=
  String.length_toList ▸ (List.isPrefixOf_iff_prefix.1 h).length_le

theorem runLength_le (p : Char → Bool) (cs : List Char) : runLength p cs ≤ cs.length :=
  (List.takeWhile_prefix p).length_le

theorem blockEnd?_le {cs : List Char} {n : Nat} (h : n ∈ blockEnd? cs) : n ≤ cs.length := by
  induction cs generalizing n with
  | nil => cases h
  | cons c cs ih =>
    rw [blockEnd?] at h
    split at h
    · rename_i hmarker
      cases h
      exact length_le_of_startsWith hmarker
    · obtain ⟨k, hk, rfl⟩ := Option.map_eq_some_iff.1 h
      have := ih hk
      rw [List.length_cons]
      omega

theorem lineEnd_le (cs : List Char) : lineEnd cs ≤ cs.length := by
  induction hlen : cs.length using Nat.strongRecOn generalizing cs with
  | ind n ih =>
    cases h : commentBelow? cs with
    | none =>
      rw [lineEnd_of_none h, ← hlen]
      exact runLength_le _ _
    | some further =>
      have hlt := length_of_mem_commentBelow? h
      have hle := ih further.length (by omega) further rfl
      rw [lineEnd_of_some h]
      omega

theorem le_of_mem_run? {p : Char → Bool} {cs : List Char} {n : Nat} (h : n ∈ run? p cs) :
    n ≤ cs.length := by
  unfold run? at h
  split at h
  · cases h
  · cases h
    exact runLength_le p cs

theorem le_of_mem_measures {before : Option Char} {text : List Char}
    {m : Option LexemeKind × Option Nat} (hm : m ∈ measures before text) {n : Nat} (hn : n ∈ m.2) :
    n ≤ text.length := by
  simp only [measures, List.mem_cons, List.not_mem_nil, or_false] at hm
  -- one case for each kind of lexeme, in the order of `measures`
  rcases hm with rfl | rfl | rfl | rfl | rfl | rfl | rfl
  · unfold blockComment? at hn
    split at hn
    · rename_i hmarker
      obtain ⟨k, hk, rfl⟩ := Option.map_eq_some_iff.1 hn
      have hle := blockEnd?_le hk
      have hmarker : 2 ≤ text.length := length_le_of_startsWith hmarker
      rw [List.length_drop] at hle
      omega
    · cases hn
  · unfold lineComments? at hn
    split at hn
    · rename_i hmarker
      cases hn
      have hle := lineEnd_le (text.drop 2)
      have hmarker : 2 ≤ text.length := length_le_of_startsWith hmarker
      rw [List.length_drop] at hle
      omega
    · cases hn
  · exact le_of_mem_run? hn
  · obtain ⟨word, hword, rfl⟩ := Option.map_eq_some_iff.1 hn
    have hstands := (mem_typeKeywords_of_mem_keyword? hword).2
    exact length_le_of_startsWith (Bool.and_eq_true_iff.1 hstands).1
  · unfold name? at hn
    split at hn
    · cases hn
    · rename_i c cs
      split at hn
      · cases hn
        have hle := runLength_le isNameRest cs
        rw [List.length_cons]
        omega
      · cases hn
  · unfold operator? at hn
    split at hn
    · cases hn
    · split at hn
      · cases hn
        rw [List.length_cons]
        omega
      · cases hn
  · exact le_of_mem_run? hn

theorem pieceAt_le (before : Option Char) {text : List Char} (h : text ≠ []) :
    (pieceAt before text).2 ≤ text.length := by
  rcases pieceAt_cases before text with heq | ⟨m, hm, n, hn, heq⟩
  · rw [heq]
    exact List.length_pos_iff.2 h
  · rw [heq]
    exact le_of_mem_measures hm hn

/-! ### The scanner -/

/-- The lexemes of a text that begins at the position `p`, behind the character `before`. -/
def scan (before : Option Char) (p : Position) (text : List Char) : List Lexeme :=
  match text with
  | [] => []
  | c :: cs =>
    let piece := pieceAt before (c :: cs)
    let claimed := (c :: cs).take piece.2
    let stop := p.after claimed
    let further := scan claimed.getLast? stop ((c :: cs).drop piece.2)
    match piece.1 with
    | some kind => ⟨kind, String.ofList claimed, ⟨p, stop⟩⟩ :: further
    | none => further
termination_by text.length
decreasing_by
  have := pieceAt_pos before (c :: cs)
  rw [List.length_drop, List.length_cons]
  omega

theorem scan_of_ne_nil (before : Option Char) (p : Position) {text : List Char} (h : text ≠ []) :
    scan before p text =
      let claimed := text.take (pieceAt before text).2
      let further := scan claimed.getLast? (p.after claimed) (text.drop (pieceAt before text).2)
      match (pieceAt before text).1 with
      | some kind => ⟨kind, String.ofList claimed, ⟨p, p.after claimed⟩⟩ :: further
      | none => further := by
  cases text with
  | nil => exact absurd rfl h
  | cons c cs => rw [scan]

/-- The lexemes of a source. -/
def lexemes (source : String) : List Lexeme := scan none {} source.toList

end CStruct.Scanner
