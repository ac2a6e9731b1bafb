import CStruct.Pattern.Automaton
import CStruct.Text.Cursor
import CStruct.Text.WordChar

/-!
# Matching a pattern

An automaton goes through a text in step with all the ways of matching at once. At each cursor there
is a list of states to be entered, best first. `Automaton.frontier` follows them up to the states
that read a character or accept, and enters no state twice: whoever comes to a state later could do
nothing there that has not been tried before. This also keeps a round of a repetition from following
on one that has passed no text. What comes behind an accepting state would be worse than what it
accepts, and is dropped; what stands before it goes on to the next character.

The work at a cursor is thus bounded by the number of states, and the last state that accepts gives
the best match.
-/

namespace CStruct

/-- Whether exactly one of the characters around the cursor is a word character. -/
def Cursor.atWordBoundary (c : Cursor) : Bool :=
  c.before.any Text.isWordChar != c.rest.head?.any Text.isWordChar

namespace Automaton

/-! ## One cursor -/

def State.isAccept : State → Bool
  | accept => true
  | _ => false

/-- The state after reading `ch`, if `ch` can be read. -/
def State.after? (ch : Char) : State → Option Nat
  | char set next => if set.holds ch then some next else none
  | _ => none

/-- The states that read a character or accept among those that `todo` leads to at the cursor, best
first. States that have been `seen` are not entered again. Every state is entered once at most and
leaves two others to be entered at most, which bounds the number of steps. -/
def follow (a : Automaton) (c : Cursor) : Nat → List Nat → List Nat → List State
  | 0, _, _ => []
  | _, _, [] => []
  | fuel + 1, seen, i :: todo =>
    if seen.contains i then follow a c fuel seen todo
    else
      match a.states[i]? with
      | none => follow a c fuel seen todo
      | some .accept => [.accept]
      | some (.go next) => follow a c fuel (i :: seen) (next :: todo)
      | some (.char set next) => .char set next :: follow a c fuel (i :: seen) todo
      | some (.wordBoundary next) =>
        follow a c fuel (i :: seen) (if c.atWordBoundary then next :: todo else todo)
      | some (.fork first second) => follow a c fuel (i :: seen) (first :: second :: todo)

/-- The states that read a character or accept once those in `starts` are entered at the cursor. -/
def frontier (a : Automaton) (c : Cursor) (starts : List Nat) : List State :=
  a.follow c (starts.length + 2 * a.states.size) [] starts

/-! ## All of the text -/

/-- Where the best match ends, if the states in `starts` are entered at the cursor and `best` is the
best match up to now; `ahead` is the text after the cursor. -/
def run (a : Automaton) (best : Option Cursor) (starts : List Nat) (c : Cursor) :
    List Char → Option Cursor
  | [] => if (a.frontier c starts).any State.isAccept then some c else best
  | ch :: ahead =>
    let frontier := a.frontier c starts
    let best := if frontier.any State.isAccept then some c else best
    match frontier.filterMap (State.after? ch) with
    | [] => best
    | starts => a.run best starts (c.pass ch ahead) ahead

/-- Where the best match at the cursor ends, if there is one. -/
def matchAt? (a : Automaton) (c : Cursor) : Option Cursor := a.run none [0] c c.rest

/-! ## Where matches end -/

/-- A run finds what it was given, or a place that it came to. The induction is on the text ahead, from
any cursor. -/
theorem exists_skip_of_run {a : Automaton} {best : Option Cursor} {starts : List Nat} {c d : Cursor}
    (h : a.run best starts c c.rest = some d) :
    best = some d ∨ ∃ n ≤ c.rest.length, d = c.skip n := by
  obtain ⟨offset, before, rest⟩ := c
  induction rest generalizing best starts offset before with
  | nil =>
    simp only [run] at h
    split at h
    · exact .inr ⟨0, Nat.zero_le _, (Option.some.inj h).symm⟩
    · exact .inl h
  | cons ch ahead ih =>
    let c : Cursor := ⟨offset, before, ch :: ahead⟩
    have here {accepted : Bool} (hd : (if accepted then some c else best) = some d) :
        best = some d ∨ ∃ n ≤ c.rest.length, d = c.skip n := by
      split at hd
      · exact .inr ⟨0, Nat.zero_le _, (Option.some.inj hd).symm⟩
      · exact .inl hd
    simp only [run] at h
    split at h
    · exact here h
    · rcases ih _ _ h with hd | ⟨n, hn, hd⟩
      · exact here hd
      · exact .inr ⟨n + 1, Nat.succ_le_succ hn, hd⟩

/-- A match ends at a cursor of the same text, at or after the one it starts at. -/
theorem exists_skip_of_matchAt? {a : Automaton} {c d : Cursor} (h : a.matchAt? c = some d) :
    ∃ n ≤ c.rest.length, d = c.skip n :=
  (exists_skip_of_run h).resolve_left nofun

end Automaton

end CStruct
