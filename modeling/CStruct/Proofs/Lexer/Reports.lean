import CStruct.Proofs.Lexer.Calls
import CStruct.Proofs.Lexer.Loops

/-!
# What actions are handed

To see what the actions of a lexer are handed, give it actions that report just that. They stop the
lexer each time, but it goes on from where the other would have gone on by itself: whatever an
action answers, the lexer takes the same steps (`step_reporting`). So the results of the reporting
lexer are all that the actions are handed, in order (`reports`), and each call of the lexer goes
through them up to the next that is answered (`answered_next`).
-/

namespace CStruct

variable {α : Type}

/-- A call of the action of a rule: how many of these calls there have been by then, the text and
the span that the action is handed, and what it answers. -/
structure Invocation (α : Type) where
  rule : Nat
  call : Nat
  text : String
  span : Span
  answer? : Option α

/-- The rule with an action that reports what it is handed and what the rule's own one answers. -/
def Rule.reporting (number : Nat) (r : Rule α) : Rule (Invocation α) where
  written := r.written
  action call text span := some ⟨number, call, text, span, r.action call text span⟩
  calls := r.calls

namespace Lexer

variable {E : PatternEngine} {regex : E.Regex}

/-- The lexer with actions that report. -/
def reporting (l : Lexer E α) : Lexer E (Invocation α) where
  source := l.source
  rules := l.rules.mapIdx Rule.reporting
  phase := l.phase
  offset := l.offset
  position := l.position

/-- All that actions are handed from here on. -/
def reports (l : Lexer E α) : List (Invocation α) := l.reporting.results

/-! ## The same steps -/

/-- What a step comes to if the action does not report. -/
def Outcome.plain : Outcome (Invocation α) → Outcome α
  | .ended => .ended
  | .passed => .passed
  | .yielded i => .ofAnswer i.answer?

theorem reporting_counting (l : Lexer E α) (number : Nat) :
    (l.counting number).reporting = l.reporting.counting number := by
  have hrules : (l.rules.modify number fun r => { r with calls := r.calls + 1 }).mapIdx
      Rule.reporting =
        (l.rules.mapIdx Rule.reporting).modify number fun r => { r with calls := r.calls + 1 } := by
    apply List.ext_getElem?
    intro i
    rw [List.getElem?_mapIdx, List.getElem?_modify, List.getElem?_modify, List.getElem?_mapIdx]
    cases l.rules[i]? with
    | none => rfl
    | some r =>
      by_cases heq : number = i
      · simp [heq, Rule.reporting]
      · simp [heq]
  simp only [counting, reporting, hrules]

theorem fire_reporting (l : Lexer E α) (number stop : Nat) :
    ∃ outcome, l.reporting.fire number stop = ((l.fire number stop).1.reporting, outcome) ∧
      outcome.plain = (l.fire number stop).2 := by
  have hrule : l.reporting.rules[number]? = l.rules[number]?.map (Rule.reporting number) :=
    List.getElem?_mapIdx
  have hstate : (l.reporting.moveTo stop).counting number = (l.fire number stop).1.reporting :=
    (reporting_counting (l.moveTo stop) number).symm
  refine ⟨_, Prod.ext hstate rfl, ?_⟩
  show (Outcome.ofAnswer (l.reporting.rules[number]?.bind _)).plain =
    .ofAnswer (l.rules[number]?.bind _)
  rw [hrule]
  cases l.rules[number]? <;> rfl

/-- A lexer that reports takes the same steps. -/
theorem step_reporting (l : Lexer E α) (regex : E.Regex) :
    ∃ outcome, l.reporting.step regex = ((l.step regex).1.reporting, outcome) ∧
      outcome.plain = (l.step regex).2 := by
  have hsource (l : Lexer E α) : l.reporting.source = l.source := rfl
  have hoffset : l.reporting.offset = l.offset := rfl
  have hmoved (offset : Nat) : l.reporting.moveTo offset = (l.moveTo offset).reporting := rfl
  have hcount (l : Lexer E α) : l.reporting.rules.length = l.rules.length := List.length_mapIdx
  unfold step
  rw [hsource, hoffset]
  cases E.find? regex l.source l.offset with
  | none => exact ⟨.ended, rfl, rfl⟩
  | some m =>
    dsimp only
    rw [hmoved, hcount, hsource]
    split
    · cases claim? (l.moveTo m.start).rules.length m with
      | some number => exact fire_reporting (l.moveTo m.start) number m.stop
      | none => exact ⟨.ended, rfl, rfl⟩
    · split
      · exact ⟨.passed, rfl, rfl⟩
      · exact ⟨.ended, rfl, rfl⟩

/-! ## Calls -/

/-- What one call does with what actions are handed from there on: it goes through it up to the
first that is answered, and answers the same. The rest of it is left for `later`. -/
inductive Answered : List (Invocation α) → Option α → List (Invocation α) → Prop
  | ended : Answered [] none []
  | silent {i log result? later} (h : i.answer? = none) (h' : Answered log result? later) :
      Answered (i :: log) result? later
  | answered {i result later} (h : i.answer? = some result) :
      Answered (i :: later) (some result) later

section Outcomes

variable {outcome : Outcome (Invocation α)}

theorem eq_ended_of_plain (h : outcome.plain = .ended) : outcome = .ended := by
  cases outcome with
  | ended => rfl
  | passed => cases h
  | yielded i =>
    rw [Outcome.plain] at h
    cases hanswer : i.answer? <;> rw [hanswer] at h <;> cases h

theorem eq_yielded_of_plain {result : α} (h : outcome.plain = .yielded result) :
    ∃ i, outcome = .yielded i ∧ i.answer? = some result := by
  cases outcome with
  | ended => cases h
  | passed => cases h
  | yielded i =>
    refine ⟨i, rfl, ?_⟩
    rw [Outcome.plain] at h
    cases hanswer : i.answer? with
    | none =>
      rw [hanswer] at h
      cases h
    | some result' =>
      rw [hanswer] at h
      cases h
      rfl

theorem eq_passed_of_plain (h : outcome.plain = .passed) :
    outcome = .passed ∨ ∃ i, outcome = .yielded i ∧ i.answer? = none := by
  cases outcome with
  | ended => cases h
  | passed => exact .inl rfl
  | yielded i =>
    refine .inr ⟨i, rfl, ?_⟩
    rw [Outcome.plain] at h
    cases hanswer : i.answer? with
    | none => rfl
    | some result =>
      rw [hanswer] at h
      cases h

end Outcomes

theorem reports_of_finished {l : Lexer E α} (hphase : l.phase = .finished) : l.reports = [] :=
  results_of_finished hphase

/-- The loop goes through what its actions are handed. -/
theorem answered_of_loop {l l' : Lexer E α} {result? : Option α} (h : Loop regex l result? l')
    (hphase : l.phase = .running regex) : Answered l.reports result? l'.reports := by
  induction h with
  | @ended l l' h =>
    have hfinished := (follows_step l regex).2 (by rw [h])
    obtain ⟨outcome, hstep, hplain⟩ := step_reporting l regex
    rw [h] at hfinished hstep hplain
    rw [eq_ended_of_plain hplain] at hstep
    rw [reports, results_of_ended (l := l.reporting) hphase hstep, reports_of_finished hfinished]
    exact .ended
  | @yielded l l' result h =>
    obtain ⟨outcome, hstep, hplain⟩ := step_reporting l regex
    rw [h] at hstep hplain
    obtain ⟨i, rfl, hanswer⟩ := eq_yielded_of_plain hplain
    rw [reports, results_of_yielded (l := l.reporting) hphase hstep]
    exact .answered hanswer
  | @passed l l' l'' result? h _ ih =>
    have hphase' : l'.phase = .running regex := (step_lt h Outcome.passed_ne_ended).2.trans hphase
    obtain ⟨outcome, hstep, hplain⟩ := step_reporting l regex
    rw [h] at hstep hplain
    rcases eq_passed_of_plain hplain with rfl | ⟨i, rfl, hanswer⟩
    · rw [reports, results_of_passed (l := l.reporting) hphase hstep]
      exact ih hphase'
    · rw [reports, results_of_yielded (l := l.reporting) hphase hstep]
      exact .silent hanswer (ih hphase')

theorem answered_next {l : Lexer E α} (hphase : l.phase ≠ .configuring) :
    Answered l.reports l.next.1 l.next.2.reports := by
  cases hl : l.phase with
  | configuring => exact absurd hl hphase
  | running regex => exact answered_of_loop (loop_next hl) hl
  | finished =>
    rw [next_of_finished hl, reports_of_finished hl]
    exact .ended

section Answered

variable {log later : List (Invocation α)} {result? : Option α}

theorem Answered.answers_eq (h : Answered log result? later) :
    log.filterMap Invocation.answer? = result?.toList ++ later.filterMap Invocation.answer? := by
  induction h with
  | ended => rfl
  | silent h _ ih => rw [List.filterMap_cons_none h, ih]
  | answered h =>
    rw [List.filterMap_cons_some h]
    rfl

theorem Answered.eq_nil_of_none (h : Answered log none later) : later = [] := by
  generalize hresult : (none : Option α) = result? at h
  induction h with
  | ended => rfl
  | silent _ _ ih => exact ih hresult
  | answered => cases hresult

end Answered

theorem call_lex_of_started {l : Lexer E α} (hphase : l.phase ≠ .configuring) :
    l.call .lex = (.ok (.next l.next.1), l.next.2) := by
  rw [call_lex, start_of_started hphase]

/-- Calls give the answers of the actions, one each, and none once there are no more. -/
theorem answers_lex {l : Lexer E α} (hphase : l.phase ≠ .configuring) (k : Nat) :
    l.answers (List.replicate k .lex) = (List.range k).map fun j =>
      .ok (.next (l.reports.filterMap Invocation.answer?)[j]?) := by
  induction k generalizing l with
  | zero => rfl
  | succ k ih =>
    have hanswered := answered_next hphase
    have hvalues := hanswered.answers_eq
    rw [List.replicate_succ, answers, call_lex_of_started hphase, List.range_succ_eq_map,
      List.map_cons, List.map_map, ih ((follows_next l).started hphase)]
    cases hnext : l.next.1 with
    | none =>
      rw [hnext] at hanswered hvalues
      rw [hanswered.eq_nil_of_none] at hvalues ⊢
      rw [hvalues]
      simp [Function.comp_def]
    | some result =>
      rw [hnext] at hvalues
      rw [hvalues]
      rfl

end Lexer

end CStruct
