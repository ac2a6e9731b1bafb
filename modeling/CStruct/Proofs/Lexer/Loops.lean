import CStruct.Proofs.Lexer.Calls
import CStruct.Proofs.Lexer.Steps

/-!
# The loop of a lexer

A lexer takes one step after another until one gives a result or there is nothing more to claim.
`Loop` says so without a bound on the steps. Every step but the last passes some text, so there is
always an end (`exists_loop`), and the bounds that the lexer itself keeps to are never reached: the
next result is the outcome of the loop (`loop_iff`).
-/

namespace CStruct.Lexer

variable {E : PatternEngine} {α : Type}

/-! ## The loop -/

/-- Going on from `l` up to a result, or to the end of the text, leaves `l'`. -/
inductive Loop (regex : E.Regex) : Lexer E α → Option α → Lexer E α → Prop
  | ended {l l'} (h : l.step regex = (l', .ended)) : Loop regex l none l'
  | yielded {l l' result} (h : l.step regex = (l', .yielded result)) :
      Loop regex l (some result) l'
  | passed {l l' l'' result?} (h : l.step regex = (l', .passed)) (h' : Loop regex l' result? l'') :
      Loop regex l result? l''

variable {regex : E.Regex} {l l' l'' : Lexer E α} {result? : Option α}

/-- The loop comes to an end. -/
theorem exists_loop (regex : E.Regex) (l : Lexer E α) : ∃ result? l', Loop regex l result? l' := by
  induction hleft : l.left using Nat.strongRecOn generalizing l with
  | ind left ih =>
    cases hstep : l.step regex with
    | mk l' outcome =>
      cases outcome with
      | ended => exact ⟨none, l', .ended hstep⟩
      | yielded result => exact ⟨some result, l', .yielded hstep⟩
      | passed =>
        have hlt := (step_lt hstep Outcome.passed_ne_ended).1
        obtain ⟨result?, l'', hloop⟩ := ih _ (hleft ▸ hlt) l' rfl
        exact ⟨result?, l'', .passed hstep hloop⟩

/-- Where the text has been dealt with, the loop ends with the first step. -/
theorem Loop.eq_of_left_eq_zero (h : Loop regex l result? l') (hleft : l.left = 0) :
    result? = none ∧ l' = l.finish := by
  have hstep := step_of_left_eq_zero hleft regex
  cases h with
  | ended h =>
    rw [hstep] at h
    cases h
    exact ⟨rfl, rfl⟩
  | yielded h | passed h =>
    rw [hstep] at h
    cases h

/-- The loop is done with the steps that the lexer allows for. -/
theorem Loop.advance_eq (h : Loop regex l result? l') {left : Nat} (hleft : l.left ≤ left) :
    advance regex left l = (result?, l') := by
  induction left generalizing l with
  | zero =>
    obtain ⟨rfl, rfl⟩ := h.eq_of_left_eq_zero (Nat.le_zero.1 hleft)
    rfl
  | succ left ih =>
    rw [advance]
    cases h with
    | ended h | yielded h => rw [h]
    | passed h h' =>
      have hlt := (step_lt h Outcome.passed_ne_ended).1
      rw [h]
      exact ih h' (by omega)

/-- The next result is what the loop comes to. -/
theorem loop_iff (hphase : l.phase = .running regex) :
    Loop regex l result? l' ↔ l.next = (result?, l') := by
  rw [next, hphase]
  dsimp only
  constructor
  · intro h
    exact h.advance_eq (Nat.le_refl _)
  · intro h
    obtain ⟨other?, l'', hloop⟩ := exists_loop regex l
    rw [hloop.advance_eq (Nat.le_refl _)] at h
    cases h
    exact hloop

theorem loop_next (hphase : l.phase = .running regex) : Loop regex l l.next.1 l.next.2 :=
  (loop_iff hphase).2 rfl

/-- A result is found past some text. -/
theorem Loop.lt_of_some {result : α} (h : Loop regex l (some result) l') : l'.left < l.left := by
  generalize hresult : some result = result? at h
  induction h with
  | ended => cases hresult
  | yielded h => exact (step_lt h (Outcome.yielded_ne_ended _)).1
  | passed h _ ih => exact Nat.lt_trans (ih hresult) (step_lt h Outcome.passed_ne_ended).1

/-- Going on leaves the lexer running, or finished. -/
theorem Loop.phase (h : Loop regex l result? l') :
    l'.phase = l.phase ∨ l'.phase = .finished := by
  induction h with
  | @ended l l' h =>
    have hfinished := (follows_step l regex).2
    rw [h] at hfinished
    exact .inr (hfinished rfl)
  | yielded h => exact .inl (step_lt h (Outcome.yielded_ne_ended _)).2
  | passed h _ ih => rwa [← (step_lt h Outcome.passed_ne_ended).2]

/-! ## All results -/

/-- All results from here on. -/
def results (l : Lexer E α) : List α := (collect l.left l).1

theorem next_lt {result : α} (h : l.next = (some result, l')) : l'.left < l.left := by
  cases hphase : l.phase with
  | configuring | finished =>
    rw [next, hphase] at h
    cases h
  | running regex => exact ((loop_iff hphase).2 h).lt_of_some

theorem collect_of_left_eq_zero (hleft : l.left = 0) (left : Nat) :
    collect left l = ([], l.next.2) := by
  cases left with
  | zero => rfl
  | succ left =>
    rw [collect]
    split
    · rename_i heq
      rw [heq]
    · rename_i heq
      have hlt := next_lt heq
      omega

/-- There are no more results than characters left, so more room for them makes no difference. -/
theorem collect_congr {left left' : Nat} (h : l.left ≤ left) (h' : l.left ≤ left') :
    collect left l = collect left' l := by
  induction left generalizing l left' with
  | zero =>
    have hleft := Nat.le_zero.1 h
    rw [collect_of_left_eq_zero hleft, collect_of_left_eq_zero hleft]
  | succ left ih =>
    cases left' with
    | zero =>
      have hleft := Nat.le_zero.1 h'
      rw [collect_of_left_eq_zero hleft, collect_of_left_eq_zero hleft]
    | succ left' =>
      rw [collect, collect]
      split
      · rfl
      · rename_i result l' heq
        have hlt := next_lt heq
        have hsame : collect left l' = collect left' l' := ih (by omega) (by omega)
        rw [hsame]

/-- All results are the next one and those behind it. -/
theorem results_eq (l : Lexer E α) : l.results = match l.next with
    | (none, _) => []
    | (some result, l') => result :: l'.results := by
  have hmore : collect l.left l = collect (l.left + 1) l :=
    collect_congr (Nat.le_refl _) (Nat.le_succ _)
  rw [results, hmore, collect]
  cases heq : l.next with
  | mk result? l' =>
    cases result? with
    | none => rfl
    | some result =>
      show result :: (collect l.left l').1 = result :: l'.results
      rw [results, collect_congr (Nat.le_of_lt (next_lt heq)) (Nat.le_refl _)]

theorem results_of_finished (hphase : l.phase = .finished) : l.results = [] := by
  rw [results_eq, next_of_finished hphase]

section Step

variable (hphase : l.phase = .running regex)
include hphase

theorem results_of_ended (h : l.step regex = (l', .ended)) : l.results = [] := by
  rw [results_eq, (loop_iff hphase).1 (.ended h)]

theorem results_of_yielded {result : α} (h : l.step regex = (l', .yielded result)) :
    l.results = result :: l'.results := by
  rw [results_eq, (loop_iff hphase).1 (.yielded h)]

theorem results_of_passed (h : l.step regex = (l', .passed)) : l.results = l'.results := by
  have hphase' : l'.phase = .running regex := (step_lt h Outcome.passed_ne_ended).2.trans hphase
  rw [results_eq, (loop_iff hphase).1 (.passed h (loop_next hphase')), ← results_eq]

end Step

end CStruct.Lexer
