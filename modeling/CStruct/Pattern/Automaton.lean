import CStruct.Pattern.Basic

/-!
# Automata

An `Automaton` does what a pattern says, one small step at a time. Its states are numbered; each one
reads a character, asks for a word boundary, forks or accepts, and names the state to go on with. A
fork prefers its first branch, which is all that the preferences of a pattern come to.

The states of a pattern are laid out one after another: `Fragment` says how many there are and what
they are once it is known where they start and what comes after them. They are entered at `start`,
the first of them, and all ways out of them lead to `next`.
-/

namespace CStruct

namespace Automaton

/-- What a state of an automaton does, and the numbers of the states that it goes on with. -/
inductive State where
  /-- The whole pattern has been matched. -/
  | accept
  /-- Goes on at once. -/
  | go (next : Nat)
  /-- Goes on past a character of the set. -/
  | char (set : CharSet) (next : Nat)
  /-- Goes on at a word boundary. -/
  | wordBoundary (next : Nat)
  /-- Goes on either way, but rather the first. -/
  | fork (first second : Nat)
  deriving DecidableEq

/-- States in a row, known up to where the row starts and what follows it. -/
structure Fragment where
  size : Nat
  states : (start next : Nat) → List State

namespace Fragment

/-- One state that goes on to what follows. -/
def single (state : Nat → State) : Fragment := ⟨1, fun _ next => [state next]⟩

/-- Nothing but going on. -/
def empty : Fragment := single .go

/-- One fragment after the other. -/
def andThen (f g : Fragment) : Fragment where
  size := f.size + g.size
  states start next :=
    let middle := start + f.size
    f.states start middle ++ g.states middle next

/-- The first fragment or, failing that, the second. -/
def orElse (f g : Fragment) : Fragment where
  size := 1 + f.size + g.size
  states start next :=
    let first := start + 1
    let second := first + f.size
    .fork first second :: f.states first next ++ g.states second next

/-- The body or nothing; a greedy choice tries the body first. -/
def optional (greedy : Bool) (body : Fragment) : Fragment :=
  if greedy then body.orElse empty else empty.orElse body

/-- Any number of rounds of the body, with the same choice of another one before each. -/
def loop (greedy : Bool) (body : Fragment) : Fragment where
  size := body.size + 1
  states start next :=
    let first := start + 1
    (if greedy then .fork first next else .fork next first) :: body.states first start

/-- At least one round of the body. After each there is a choice of another one. -/
def rounds (greedy : Bool) (body : Fragment) : Fragment where
  size := body.size + 1
  states start next :=
    let last := start + body.size
    body.states start last ++ [if greedy then .fork start next else .fork next start]

/-- Exactly `n` rounds of the body, and then `f`. -/
def exactlyThen (body f : Fragment) : Nat → Fragment
  | 0 => f
  | n + 1 => body.andThen (exactlyThen body f n)

/-- At most `n` rounds of the body. -/
def upTo (greedy : Bool) (body : Fragment) : Nat → Fragment
  | 0 => empty
  | n + 1 => optional greedy (body.andThen (upTo greedy body n))

/-- At least `least` and at most `most` rounds of the body. Where no round is needed and there is no
bound, a body that can be empty makes for a choice between nothing and at least one round: in a loop
an empty round would come back to the state that it started from, and not get out. -/
def times (least : Nat) (most : Option Nat) (greedy canBeEmpty : Bool) (body : Fragment) :
    Fragment :=
  match most, least with
  | some most, 0 => upTo greedy body most
  | some most, n + 1 =>
    if most ≤ n + 1 then exactlyThen body body n
    else exactlyThen body (upTo greedy body (most - (n + 1))) (n + 1)
  | none, 0 => if canBeEmpty then optional greedy (rounds greedy body) else loop greedy body
  | none, n + 1 => exactlyThen body (rounds greedy body) n

end Fragment

end Automaton

/-- The states of a pattern. -/
def Pattern.fragment : Pattern → Automaton.Fragment
  | .empty => .empty
  | .char set => .single (.char set)
  | .wordBoundary => .single .wordBoundary
  | .seq p q => p.fragment.andThen q.fragment
  | .alt p q => p.fragment.orElse q.fragment
  | .rep least most greedy p => p.fragment.times least most greedy p.canBeEmpty
  | .group _ p => p.fragment

/-- A machine that is entered at state 0. -/
structure Automaton where
  states : Array Automaton.State

/-- How many states an automaton may have. -/
def Automaton.sizeLimit : Nat := 327680

/-- The automaton of a pattern: its states and, behind them, the one that accepts. -/
def Automaton.ofPattern (p : Pattern) : Automaton :=
  ⟨(p.fragment.states 0 p.fragment.size ++ [State.accept]).toArray⟩

/-! ## Sizes -/

namespace Automaton.Fragment

/-- Whether the fragment has as many states as it says, wherever it is laid out. -/
def Fits (f : Fragment) : Prop := ∀ start next, (f.states start next).length = f.size

theorem fits_single (state : Nat → State) : (single state).Fits := fun _ _ => rfl

theorem Fits.andThen {f g : Fragment} (hf : f.Fits) (hg : g.Fits) : (f.andThen g).Fits :=
  fun _ _ => by simp [Fragment.andThen, hf _ _, hg _ _]

theorem Fits.orElse {f g : Fragment} (hf : f.Fits) (hg : g.Fits) : (f.orElse g).Fits :=
  fun _ _ => by simp [Fragment.orElse, hf _ _, hg _ _]; omega

theorem Fits.optional {f : Fragment} (greedy : Bool) (hf : f.Fits) : (f.optional greedy).Fits := by
  cases greedy
  · exact (fits_single _).orElse hf
  · exact hf.orElse (fits_single _)

theorem Fits.loop {f : Fragment} (greedy : Bool) (hf : f.Fits) : (f.loop greedy).Fits :=
  fun _ _ => by simp [Fragment.loop, hf _ _]

theorem Fits.rounds {f : Fragment} (greedy : Bool) (hf : f.Fits) : (f.rounds greedy).Fits :=
  fun _ _ => by simp [Fragment.rounds, hf _ _]

theorem Fits.exactlyThen {f g : Fragment} (hf : f.Fits) (hg : g.Fits) (n : Nat) :
    (f.exactlyThen g n).Fits := by
  induction n with
  | zero => exact hg
  | succ n ih => exact hf.andThen ih

theorem Fits.upTo {f : Fragment} (greedy : Bool) (hf : f.Fits) (n : Nat) :
    (f.upTo greedy n).Fits := by
  induction n with
  | zero => exact fits_single _
  | succ n ih => exact (hf.andThen ih).optional greedy

theorem Fits.times {f : Fragment} (least : Nat) (most : Option Nat) (greedy canBeEmpty : Bool)
    (hf : f.Fits) : (f.times least most greedy canBeEmpty).Fits := by
  unfold Fragment.times
  split
  · exact hf.upTo greedy _
  · split
    · exact hf.exactlyThen hf _
    · exact hf.exactlyThen (hf.upTo greedy _) _
  · split
    · exact (hf.rounds greedy).optional greedy
    · exact hf.loop greedy
  · exact hf.exactlyThen (hf.rounds greedy) _

end Automaton.Fragment

/-- A pattern has as many states as its fragment says. -/
theorem Pattern.fits_fragment (p : Pattern) : p.fragment.Fits := by
  induction p with
  | empty | char | wordBoundary => exact Automaton.Fragment.fits_single _
  | seq p q hp hq => exact hp.andThen hq
  | alt p q hp hq => exact hp.orElse hq
  | rep least most greedy p hp => exact hp.times least most greedy p.canBeEmpty
  | group name? p hp => exact hp

/-- The accepting state comes directly behind the states of the pattern. -/
theorem Automaton.states_ofPattern_size (p : Pattern) :
    (ofPattern p).states[p.fragment.size]? = some .accept := by
  simp [ofPattern, p.fits_fragment 0 p.fragment.size]

end CStruct
