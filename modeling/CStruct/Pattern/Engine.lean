import CStruct.Pattern.Matching
import CStruct.Pattern.Reader
import CStruct.PatternEngine

/-!
# The engine of patterns

A written pattern is read as a `Regex`: its automaton, and those of its alternatives, which tell
which of them it was that matched, if that is a group with a name. Groups further inside are not told
apart. A search goes from cursor to cursor, so it finds the leftmost match.
-/

namespace CStruct.Pattern

/-- The name of the group that a pattern is. -/
def groupName? : Pattern → Option String
  | .group name? _ => name?
  | _ => none

/-- A pattern that has been read. All automata are made once for all that is to be matched. -/
structure Regex where
  automaton : Automaton
  /-- The alternatives, with the names of the groups that they are. -/
  alternatives : List (Option String × Automaton)

namespace Regex

def ofPattern (p : Pattern) : Regex where
  automaton := .ofPattern p
  alternatives := p.options.map fun q => (q.groupName?, .ofPattern q)

/-- Reads a written pattern. Its automaton may not have too many states. -/
def ofText? (text : String) : Except String Regex :=
  match Expression.ofText? text with
  | .ok e =>
    if e.pattern.fragment.size ≤ Automaton.sizeLimit then .ok (ofPattern e.pattern)
    else .error "compiled regex exceeds size limit"
  | .error fault => .error fault.message

/-- The name of the first alternative that matches at the cursor. -/
def group? (regex : Regex) (c : Cursor) : Option String :=
  (regex.alternatives.find? fun a => (a.2.matchAt? c).isSome).bind Prod.fst

/-- The best match at the cursor. -/
def matchAt? (regex : Regex) (c : Cursor) : Option Match :=
  (regex.automaton.matchAt? c).map fun stop => ⟨c.offset, stop.offset, (regex.group? c).toList⟩

/-- The first match at the cursor or after it; `ahead` is the text after the cursor. -/
def search (regex : Regex) : (ahead : List Char) → Cursor → Option Match
  | [], c => regex.matchAt? c
  | _ :: ahead, c => (regex.matchAt? c).or (regex.search ahead c.next)

/-- The first match at the offset or after it. -/
def find? (regex : Regex) (text : List Char) (offset : Nat) : Option Match :=
  if offset ≤ text.length then regex.search (text.drop offset) (.ofOffset text offset) else none

/-! ## Where matches are -/

variable {regex : Regex} {text : List Char} {offset : Nat} {c : Cursor} {m : Match}

theorem bounds_of_matchAt? (h : regex.matchAt? c = some m) :
    m.start = c.offset ∧ m.start ≤ m.stop ∧ m.stop ≤ c.offset + c.rest.length := by
  obtain ⟨stop, hstop, rfl⟩ := Option.map_eq_some_iff.1 h
  obtain ⟨n, hn, rfl⟩ := Automaton.exists_skip_of_matchAt? hstop
  dsimp only
  rw [Cursor.offset_skip hn]
  omega

/-- A search finds the match at the first cursor that has one. The induction is on the text ahead. -/
theorem search_eq_some_iff :
    regex.search c.rest c = some m ↔
      ∃ n ≤ c.rest.length, regex.matchAt? (c.skip n) = some m ∧
        ∀ k < n, regex.matchAt? (c.skip k) = none := by
  generalize hahead : c.rest = ahead
  induction ahead generalizing c with
  | nil =>
    constructor
    · intro h
      exact ⟨0, Nat.zero_le _, h, nofun⟩
    · intro ⟨n, hn, hm, _⟩
      obtain rfl := Nat.le_zero.1 hn
      exact hm
  | cons ch ahead ih =>
    have hnext : c.next.rest = ahead := by rw [Cursor.rest_next, hahead, List.tail_cons]
    rw [search, Option.or_eq_some_iff, ih hnext]
    constructor
    · intro h
      rcases h with hm | ⟨hnone, n, hn, hm, hbefore⟩
      · exact ⟨0, Nat.zero_le _, hm, nofun⟩
      · refine ⟨n + 1, Nat.succ_le_succ hn, hm, fun k hk => ?_⟩
        cases k with
        | zero => exact hnone
        | succ k => exact hbefore k (Nat.lt_of_succ_lt_succ hk)
    · intro ⟨n, hn, hm, hbefore⟩
      cases n with
      | zero => exact .inl hm
      | succ n =>
        refine .inr ⟨hbefore 0 (Nat.succ_pos n), n, Nat.le_of_succ_le_succ hn, hm, fun k hk => ?_⟩
        exact hbefore (k + 1) (Nat.succ_lt_succ hk)

/-- What is found is the match at the first offset that has one. -/
theorem find?_eq_some_iff :
    regex.find? text offset = some m ↔
      offset ≤ m.start ∧ m.start ≤ text.length ∧
        regex.matchAt? (.ofOffset text m.start) = some m ∧
        ∀ s, offset ≤ s → s < m.start → regex.matchAt? (.ofOffset text s) = none := by
  have hskip {n : Nat} : (Cursor.ofOffset text offset).skip n = .ofOffset text (offset + n) :=
    Cursor.skip_ofOffset offset n
  have hrest : (Cursor.ofOffset text offset).rest.length = text.length - offset := by
    rw [Cursor.rest_ofOffset, List.length_drop]
  rw [find?]
  constructor
  · intro h
    split at h
    · rw [← Cursor.rest_ofOffset, search_eq_some_iff] at h
      obtain ⟨n, hn, hm, hbefore⟩ := h
      rw [hskip] at hm
      have hstart := (bounds_of_matchAt? hm).1
      rw [Cursor.offset_ofOffset (by omega)] at hstart
      refine ⟨by omega, by omega, hstart ▸ hm, fun s hs hlt => ?_⟩
      have hnone := hbefore (s - offset) (by omega)
      rwa [hskip, Nat.add_sub_cancel' hs] at hnone
    · cases h
  · intro ⟨hle, hend, hm, hbefore⟩
    rw [if_pos (Nat.le_trans hle hend), ← Cursor.rest_ofOffset, search_eq_some_iff]
    refine ⟨m.start - offset, by omega, ?_, fun k hk => ?_⟩
    · rwa [hskip, Nat.add_sub_cancel' hle]
    · rw [hskip]
      exact hbefore _ (Nat.le_add_right ..) (by omega)

end Regex

/-! ## The engine -/

/-- The engine that reads and matches patterns as they are described here. -/
abbrev engine : PatternEngine where
  Regex := Regex
  read? := Regex.ofText?
  find? := Regex.find?
  bounds h := by
    obtain ⟨hle, hend, hm, -⟩ := Regex.find?_eq_some_iff.1 h
    obtain ⟨-, hstop, hlast⟩ := Regex.bounds_of_matchAt? hm
    rw [Cursor.offset_ofOffset hend, Cursor.rest_ofOffset, List.length_drop] at hlast
    omega

theorem matchAt?_engine {regex : Regex} {text : List Char} {offset : Nat}
    (h : offset ≤ text.length) :
    engine.matchAt? regex text offset = regex.matchAt? (.ofOffset text offset) := by
  apply Option.ext
  intro m
  rw [PatternEngine.matchAt?_eq_some_iff]
  show regex.find? text offset = some m ∧ _ ↔ _
  rw [Regex.find?_eq_some_iff]
  constructor
  · intro ⟨⟨_, _, hm, _⟩, hstart⟩
    rwa [hstart] at hm
  · intro hm
    have hstart := (Regex.bounds_of_matchAt? hm).1
    rw [Cursor.offset_ofOffset h] at hstart
    subst hstart
    exact ⟨⟨Nat.le_refl _, h, hm, fun s hs hlt => absurd hlt (Nat.not_lt.2 hs)⟩, rfl⟩

theorem leftmostFirst_engine : engine.LeftmostFirst := by
  intro regex text offset m
  show Regex.find? regex text offset = some m ↔ _
  rw [Regex.find?_eq_some_iff]
  constructor
  · intro ⟨hle, hend, hm, hbefore⟩
    refine ⟨hle, by rwa [matchAt?_engine hend], fun s hs hlt => ?_⟩
    rw [matchAt?_engine (Nat.le_of_lt (Nat.lt_of_lt_of_le hlt hend))]
    exact hbefore s hs hlt
  · intro ⟨hle, hm, hbefore⟩
    obtain ⟨hstop, hlast⟩ := PatternEngine.bounds_of_matchAt? hm
    have hend := Nat.le_trans hstop hlast
    rw [matchAt?_engine hend] at hm
    refine ⟨hle, hend, hm, fun s hs hlt => ?_⟩
    rw [← matchAt?_engine (Nat.le_of_lt (Nat.lt_of_lt_of_le hlt hend))]
    exact hbefore s hs hlt

end CStruct.Pattern
