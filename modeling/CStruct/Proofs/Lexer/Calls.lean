import CStruct.Lexer
import CStruct.Pattern.Engine
import Mathlib.Data.List.Basic

/-!
# Calls on a lexer

A lexer may be held in one place and changed there, call after call, whether or not a call fails.
`Call.perform` says what a call does to it step by step. The main statement, `calls_safe`, is about
every sequence of calls: one that fails might as well not have been made, the rules are fixed from
the first start on, starting before a lexeme is asked for makes no difference, and a lexer that has
come to its end stays there.
-/

namespace CStruct.Lexer

variable {E : PatternEngine} {α β : Type}

/-! ## Lexers that are changed in place -/

/-- What changes a lexer in place. Where it fails, what it has done to the lexer before is kept. -/
abbrev InPlace (E : PatternEngine) (α : Type) := ExceptT LexError (StateM (Lexer E α))

/-- Makes a change, which leaves an answer or an error, and a lexer. -/
def InPlace.on (x : InPlace E α β) (l : Lexer E α) : Except LexError β × Lexer E α := x.run.run l

namespace InPlace

/-- Adds a rule, once it is clear that it can be added. -/
def addRule (written : String) (action : Nat → String → Span → Option α) : InPlace E α Unit := do
  if (← get).phase ≠ .configuring then throw .rulesLocked
  match E.read? written with
  | .error cause => throw (.invalidPattern written cause)
  | .ok _ => modify fun l => { l with rules := l.rules ++ [{ written, action }] }

/-- Starts the lexer unless it has been started, once it is clear that the rules go together. -/
def start : InPlace E α Unit := do
  let l ← get
  if l.phase = .configuring then
    if l.rules.isEmpty then throw .noRules
    match E.read? l.writtenRules with
    | .error cause => throw (.invalidPattern l.writtenRules cause)
    | .ok regex => modify fun l => { l with phase := .running regex }

/-- The next result, or `none` at the end; starts the lexer first. -/
def lex : InPlace E α (Option α) := do
  start
  modifyGet next

section On

variable (l : Lexer E α)

theorem on_bind {γ : Type} (x : InPlace E α β) (f : β → InPlace E α γ) :
    (x >>= f).on l = match x.on l with
      | (.ok b, l') => (f b).on l'
      | (.error e, l') => (.error e, l') := by
  unfold on
  rw [ExceptT.run_bind, StateT.run_bind]
  rcases x.run.run l with ⟨r, l'⟩
  cases r <;> rfl

theorem on_pure (b : β) : (pure b : InPlace E α β).on l = (.ok b, l) := rfl

theorem on_throw (e : LexError) : (throw e : InPlace E α β).on l = (.error e, l) := rfl

theorem on_get : (get : InPlace E α (Lexer E α)).on l = (.ok l, l) := rfl

theorem on_modify (f : Lexer E α → Lexer E α) :
    (modify f : InPlace E α PUnit).on l = (.ok ⟨⟩, f l) := rfl

theorem on_addRule (written : String) (action : Nat → String → Span → Option α) :
    (addRule written action).on l = match l.addRule written action with
      | .ok l' => (.ok (), l')
      | .error e => (.error e, l) := by
  unfold addRule Lexer.addRule
  rw [on_bind, on_get]
  dsimp only
  by_cases hphase : l.phase = .configuring
  · rw [if_neg (not_not_intro hphase), if_pos hphase]
    cases E.read? written with
    | error cause => exact on_throw l _
    | ok regex => exact on_modify l _
  · rw [if_pos hphase, if_neg hphase]
    exact on_throw l _

theorem on_start : (start : InPlace E α Unit).on l = match l.start with
      | .ok l' => (.ok (), l')
      | .error e => (.error e, l) := by
  unfold start Lexer.start
  rw [on_bind, on_get]
  dsimp only
  by_cases hphase : l.phase = .configuring
  · rw [if_pos hphase, if_pos hphase]
    by_cases hrules : l.rules.isEmpty = true
    · rw [if_pos hrules, if_pos hrules]
      exact on_throw l _
    · rw [if_neg hrules, if_neg hrules]
      cases E.read? l.writtenRules with
      | error cause => exact on_throw l _
      | ok regex => exact on_modify l _
  · rw [if_neg hphase, if_neg hphase]
    exact on_pure l _

theorem on_lex : (lex : InPlace E α (Option α)).on l = match l.lex with
      | .ok (result?, l') => (.ok result?, l')
      | .error e => (.error e, l) := by
  rw [lex, on_bind, on_start, Lexer.lex]
  cases l.start <;> rfl

end On

end InPlace

/-! ## What goes on in a lexer -/

/-- A rule without its count of calls. -/
def uncounted (r : Rule α) : Rule α := { r with calls := 0 }

/-- The rules of a lexer, whatever has been done with them. -/
def ruleSet (l : Lexer E α) : List (Rule α) := l.rules.map uncounted

/-- Counting a call of one rule does not change what the rules are. -/
theorem map_uncounted_modify (rs : List (Rule α)) (number : Nat) :
    (rs.modify number fun r => { r with calls := r.calls + 1 }).map uncounted =
      rs.map uncounted := by
  induction rs generalizing number with
  | nil => cases number <;> rfl
  | cons r rs ih =>
    cases number with
    | zero => rfl
    | succ number =>
      rw [List.modify_succ_cons, List.map_cons, List.map_cons, ih]

/-- The lexer `l'` comes behind `l`: its rules are the same, and it is not being configured if `l` is
not. -/
structure Follows (l l' : Lexer E α) : Prop where
  ruleSet : l'.ruleSet = l.ruleSet
  started : l.phase ≠ .configuring → l'.phase ≠ .configuring

variable {l l' l'' : Lexer E α}

theorem Follows.refl (l : Lexer E α) : l.Follows l := ⟨rfl, id⟩

theorem Follows.trans (h : l.Follows l') (h' : l'.Follows l'') : l.Follows l'' where
  ruleSet := h'.ruleSet.trans h.ruleSet
  started := h'.started ∘ h.started

theorem follows_finish (l : Lexer E α) : l.Follows l.finish :=
  ⟨rfl, fun _ => LexerPhase.finished_ne_configuring⟩

theorem follows_moveTo (l : Lexer E α) (offset : Nat) : l.Follows (l.moveTo offset) := ⟨rfl, id⟩

/-- Handing text to an action only counts the call. -/
theorem follows_fire (l : Lexer E α) (number stop : Nat) : l.Follows (l.fire number stop).1 :=
  ⟨map_uncounted_modify l.rules number, id⟩

theorem fire_ne_ended (l : Lexer E α) (number stop : Nat) : (l.fire number stop).2 ≠ .ended := by
  unfold fire
  dsimp only
  generalize l.rules[number]?.bind _ = answer?
  cases answer? <;> nofun

/-- A step keeps the rules, and the last one leaves the lexer finished. -/
theorem follows_step (l : Lexer E α) (regex : E.Regex) :
    l.Follows (l.step regex).1 ∧
      ((l.step regex).2 = .ended → (l.step regex).1.phase = .finished) := by
  unfold step
  split
  · exact ⟨follows_finish l, fun _ => rfl⟩
  · rename_i m _
    have hmoved := follows_moveTo l m.start
    dsimp only
    split
    · split
      · exact ⟨hmoved.trans (follows_fire _ _ _), fun h => absurd h (fire_ne_ended _ _ _)⟩
      · exact ⟨hmoved.trans (follows_finish _), fun _ => rfl⟩
    · split
      · exact ⟨hmoved.trans (follows_moveTo _ _), nofun⟩
      · exact ⟨hmoved.trans (follows_finish _), fun _ => rfl⟩

/-- Going on to the next result keeps the rules, and where there is none the lexer is finished. The
induction is on the characters that are left: only a step without a result leads on. -/
theorem follows_advance (regex : E.Regex) (left : Nat) (l : Lexer E α) :
    l.Follows (advance regex left l).2 ∧
      ((advance regex left l).1 = none → (advance regex left l).2.phase = .finished) := by
  induction left generalizing l with
  | zero => exact ⟨follows_finish l, fun _ => rfl⟩
  | succ left ih =>
    obtain ⟨hstep, hphase⟩ := follows_step l regex
    unfold advance
    split
    · rename_i l' heq
      rw [heq] at hstep hphase
      exact ⟨hstep, fun _ => hphase rfl⟩
    · rename_i l' result heq
      rw [heq] at hstep
      exact ⟨hstep, nofun⟩
    · rename_i l' heq
      rw [heq] at hstep
      exact ⟨hstep.trans (ih l').1, (ih l').2⟩

theorem follows_next (l : Lexer E α) : l.Follows l.next.2 := by
  unfold next
  split
  · exact (follows_advance _ _ l).1
  · exact .refl l
  · exact .refl l

theorem phase_next (h : l.phase ≠ .configuring) (hnone : l.next.1 = none) :
    l.next.2.phase = .finished := by
  unfold next at hnone ⊢
  split
  · rename_i regex hphase
    rw [hphase] at hnone
    exact (follows_advance regex l.left l).2 hnone
  · rename_i hphase
    exact absurd hphase h
  · rename_i hphase
    exact hphase

theorem next_of_finished (h : l.phase = .finished) : l.next = (none, l) := by
  rw [next, h]

theorem start_of_started (h : l.phase ≠ .configuring) : l.start = .ok l := if_neg h

theorem follows_start (h : l.start = .ok l') : l.Follows l' ∧ l'.phase ≠ .configuring := by
  unfold start at h
  split at h
  · split at h
    · cases h
    · split at h
      · cases h
        have hrunning := LexerPhase.running_ne_configuring (E := E)
        exact ⟨⟨rfl, fun _ => hrunning _⟩, hrunning _⟩
      · cases h
  · rename_i hphase
    cases h
    exact ⟨.refl l, hphase⟩

/-- A lexer that fails to start is still being configured. -/
theorem phase_of_start_error {e : LexError} (h : l.start = .error e) : l.phase = .configuring := by
  by_contra hphase
  rw [start_of_started hphase] at h
  cases h

/-! ## Calls -/

/-- A call on a lexer. What an action has been handed before is settled by the text and the rules, so
an action that remembers it needs to be told no more than how often it has been called. -/
inductive Call (α : Type) where
  | addRule (written : String) (action : Nat → String → Span → Option α)
  | start
  | lex

/-- What a call answers if it does not fail. -/
inductive Answer (α : Type) where
  | done
  /-- The next result, or `none` at the end. -/
  | next (result? : Option α)
  deriving DecidableEq

def Call.perform : Call α → InPlace E α (Answer α)
  | addRule written action => do
    InPlace.addRule written action
    return .done
  | start => do
    InPlace.start
    return .done
  | lex => return .next (← InPlace.lex)

/-- What a call answers, or how it fails, and the lexer that it leaves. -/
def call (l : Lexer E α) (c : Call α) : Except LexError (Answer α) × Lexer E α := c.perform.on l

/-- The lexer after several calls. -/
def after (l : Lexer E α) : List (Call α) → Lexer E α
  | [] => l
  | c :: cs => after (l.call c).2 cs

/-- What several calls answer, each of them on the lexer that the calls before it have left. -/
def answers (l : Lexer E α) : List (Call α) → List (Except LexError (Answer α))
  | [] => []
  | c :: cs => (l.call c).1 :: answers (l.call c).2 cs

section Sequences

variable (l : Lexer E α) (cs ds : List (Call α))

theorem answers_append : l.answers (cs ++ ds) = l.answers cs ++ (l.after cs).answers ds := by
  induction cs generalizing l with
  | nil => rfl
  | cons c cs ih => exact congrArg _ (ih (l.call c).2)

theorem length_answers : (l.answers cs).length = cs.length := by
  induction cs generalizing l with
  | nil => rfl
  | cons c cs ih => exact congrArg (· + 1) (ih (l.call c).2)

/-- The answers of all calls but one, if that one is left out of account. -/
theorem eraseIdx_answers (c : Call α) :
    (l.answers (cs ++ c :: ds)).eraseIdx cs.length =
      l.answers cs ++ ((l.after cs).call c).2.answers ds := by
  rw [answers_append, List.eraseIdx_append_of_length_le (Nat.le_of_eq (length_answers l cs)),
    length_answers, Nat.sub_self]
  rfl

end Sequences

/-! ### Single calls -/

section Single

variable (l : Lexer E α)

theorem call_addRule (written : String) (action : Nat → String → Span → Option α) :
    l.call (.addRule written action) = match l.addRule written action with
      | .ok l' => (.ok .done, l')
      | .error e => (.error e, l) := by
  rw [call, Call.perform, InPlace.on_bind, InPlace.on_addRule]
  cases l.addRule written action <;> rfl

theorem call_start : l.call .start = match l.start with
      | .ok l' => (.ok .done, l')
      | .error e => (.error e, l) := by
  rw [call, Call.perform, InPlace.on_bind, InPlace.on_start]
  cases l.start <;> rfl

theorem call_lex : l.call .lex = match l.start with
      | .ok l' => (.ok (.next l'.next.1), l'.next.2)
      | .error e => (.error e, l) := by
  rw [call, Call.perform, InPlace.on_bind, InPlace.on_lex, lex]
  cases l.start <;> rfl

end Single

/-- A call that starts the lexer, at the latest. -/
def Call.starts : Call α → Bool
  | addRule _ _ => false
  | start | lex => true

/-- Such a call fails as starting fails, or it goes on from the started lexer. -/
theorem call_cases_of_starts (l : Lexer E α) {c : Call α} (hc : c.starts = true) :
    (∃ e, l.start = .error e ∧ l.call c = (.error e, l)) ∨
      ∃ l' answer l'', l.start = .ok l' ∧ l.call c = (.ok answer, l'') ∧ l'.Follows l'' := by
  cases c with
  | addRule => cases hc
  | start =>
    rw [call_start]
    cases l.start with
    | error e => exact .inl ⟨e, rfl, rfl⟩
    | ok l' => exact .inr ⟨l', .done, l', rfl, rfl, .refl l'⟩
  | lex =>
    rw [call_lex]
    cases l.start with
    | error e => exact .inl ⟨e, rfl, rfl⟩
    | ok l' => exact .inr ⟨l', .next l'.next.1, l'.next.2, rfl, rfl, follows_next l'⟩

/-- A call that fails leaves the lexer as it was. -/
theorem call_of_error {c : Call α} {e : LexError} (h : (l.call c).1 = .error e) :
    (l.call c).2 = l := by
  have hstarts (hc : c.starts = true) : (l.call c).2 = l := by
    obtain ⟨e', -, heq⟩ | ⟨l', answer, l'', -, heq, -⟩ := call_cases_of_starts l hc
    · rw [heq]
    · rw [heq] at h
      cases h
  cases c with
  | addRule written action =>
    rw [call_addRule] at h ⊢
    split at h
    · cases h
    · rfl
  | start => exact hstarts rfl
  | lex => exact hstarts rfl

/-- Where starting fails, rules can still be added. -/
theorem phase_of_call_error {c : Call α} (hc : c.starts = true) {e : LexError}
    (h : (l.call c).1 = .error e) : l.phase = .configuring := by
  obtain ⟨e', hstart, -⟩ | ⟨l', answer, l'', -, heq, -⟩ := call_cases_of_starts l hc
  · exact phase_of_start_error hstart
  · rw [heq] at h
    cases h

/-- Starting, or asking for a result, keeps the rules and ends the configuring. -/
theorem follows_call_of_starts {c : Call α} (hc : c.starts = true) {answer : Answer α}
    (h : (l.call c).1 = .ok answer) :
    l.Follows (l.call c).2 ∧ (l.call c).2.phase ≠ .configuring := by
  obtain ⟨e, -, heq⟩ | ⟨l', answer', l'', hstart, heq, hnext⟩ := call_cases_of_starts l hc
  · rw [heq] at h
    cases h
  · obtain ⟨hfollows, hphase⟩ := follows_start hstart
    rw [heq]
    exact ⟨hfollows.trans hnext, hnext.started hphase⟩

/-- Once the configuring has ended, no rule can be added. -/
theorem call_addRule_of_started (h : l.phase ≠ .configuring) (written : String)
    (action : Nat → String → Span → Option α) :
    l.call (.addRule written action) = (.error .rulesLocked, l) := by
  rw [call_addRule, addRule, if_neg h]

/-- Before that, a rule may be refused for its pattern only. -/
theorem call_addRule_of_configuring (h : l.phase = .configuring) (written : String)
    (action : Nat → String → Span → Option α) :
    (l.call (.addRule written action)).1 ≠ .error .rulesLocked := by
  rw [call_addRule, addRule, if_pos h]
  cases E.read? written <;> nofun

/-- Once the configuring has ended, every call keeps the rules. -/
theorem follows_call_of_started (h : l.phase ≠ .configuring) (c : Call α) :
    l.Follows (l.call c).2 := by
  cases he : (l.call c).1 with
  | error e =>
    rw [call_of_error he]
    exact .refl l
  | ok answer =>
    cases c with
    | addRule written action =>
      rw [call_addRule_of_started h]
      exact .refl l
    | start => exact (follows_call_of_starts rfl he).1
    | lex => exact (follows_call_of_starts rfl he).1

/-- Where there is no result, the lexer is finished. -/
theorem phase_of_call_lex (h : (l.call .lex).1 = .ok (.next none)) :
    (l.call .lex).2.phase = .finished := by
  rw [call_lex] at h ⊢
  split at h
  · rename_i l' hstart
    injection h with h
    injection h with h
    exact phase_next (follows_start hstart).2 h
  · cases h

/-- A finished lexer is not changed by any call, and has no result. -/
theorem call_of_finished (h : l.phase = .finished) (c : Call α) :
    (l.call c).2 = l ∧ (l.call .lex).1 = .ok (.next none) := by
  have hstarted : l.phase ≠ .configuring := h ▸ LexerPhase.finished_ne_configuring
  have hnext := next_of_finished h
  constructor
  · cases c with
    | addRule written action => rw [call_addRule_of_started hstarted]
    | start => rw [call_start, start_of_started hstarted]
    | lex =>
      rw [call_lex, start_of_started hstarted]
      exact congrArg Prod.snd hnext
  · rw [call_lex, start_of_started hstarted]
    exact congrArg (fun r => Except.ok (Answer.next r.1)) hnext

/-- Starting first makes no difference to asking for a result. -/
theorem call_lex_of_start (l : Lexer E α) : (l.call .start).2.call .lex = l.call .lex := by
  rw [call_start]
  split
  · rename_i l' hstart
    rw [call_lex, call_lex, hstart, start_of_started (follows_start hstart).2]
  · rfl

/-! ### Sequences of calls -/

/-- Once the configuring has ended, this stays so, and the rules stay the same. -/
theorem follows_after (h : l.phase ≠ .configuring) (cs : List (Call α)) :
    l.Follows (l.after cs) := by
  induction cs generalizing l with
  | nil => exact .refl l
  | cons c cs ih =>
    have hcall := follows_call_of_started h c
    exact hcall.trans (ih (hcall.started h))

theorem after_of_finished (h : l.phase = .finished) (cs : List (Call α)) : l.after cs = l := by
  induction cs with
  | nil => rfl
  | cons c cs ih => rw [after, (call_of_finished h c).1, ih]

/-- What calls on a lexer come to, whatever calls have been made before on a new lexer for a text,
and whatever calls are made later.
1. A call that fails leaves the lexer as it was, and all other calls answer as if it had not been
   made; where starting has failed, no rule is refused because of that.
2. From the first start on that does not fail, by itself or to give a result, every rule is refused,
   and the rules stay the same.
3. A start right before a result is asked for changes no other answer.
4. Once there has been no result, there is none any more, and all stays as it is: the position, and
   the rules with their counts of calls. -/
theorem calls_safe (text : String) (before later : List (Call α)) :
    let new : Lexer E α := ofText text
    let l := new.after before
    (∀ c e, (l.call c).1 = .error e →
      (l.call c).2 = l ∧
      (new.answers (before ++ c :: later)).eraseIdx before.length =
        new.answers (before ++ later) ∧
      (c.starts = true → ∀ written action,
        (l.call (.addRule written action)).1 ≠ .error .rulesLocked)) ∧
    (∀ c answer, c.starts = true → (l.call c).1 = .ok answer →
      (∀ written action, ((l.after (c :: later)).call (.addRule written action)).1 =
        .error .rulesLocked) ∧
      (l.after (c :: later)).ruleSet = l.ruleSet) ∧
    (new.answers (before ++ .start :: .lex :: later)).eraseIdx before.length =
      new.answers (before ++ .lex :: later) ∧
    ((l.call .lex).1 = .ok (.next none) →
      ((l.after (.lex :: later)).call .lex).1 = .ok (.next none) ∧
      l.after (.lex :: later) = l.after [.lex]) := by
  intro new l
  refine ⟨fun c e he => ⟨call_of_error he, ?_, fun hc written action => ?_⟩,
    fun c answer hc hanswer => ?_, ?_, fun hnone => ?_⟩
  · rw [eraseIdx_answers, answers_append, call_of_error he]
  · exact call_addRule_of_configuring (phase_of_call_error hc he) written action
  · obtain ⟨hfollows, hphase⟩ := follows_call_of_starts hc hanswer
    have hafter := follows_after hphase later
    refine ⟨fun written action => ?_, (hfollows.trans hafter).ruleSet⟩
    rw [after, call_addRule_of_started (hafter.started hphase)]
  -- both runs go on from the same lexer, as the call of `lex` would have started it
  · rw [eraseIdx_answers, answers_append]
    show _ ++ _ :: answers _ later = _ ++ _ :: answers _ later
    rw [call_lex_of_start]
  · have hfinished := phase_of_call_lex hnone
    have hafter : l.after (.lex :: later) = (l.call .lex).2 := after_of_finished hfinished later
    rw [hafter]
    exact ⟨(call_of_finished hfinished .lex).2, rfl⟩

/-- A rule whose action counts its calls. -/
def countAs : Call Nat := .addRule "a" fun n _ _ => some n

/-- Without rules there is no result. A rule is added behind that, gives one result, and the lexer
is at its end, where it takes no further rule. -/
theorem calls_safe_countAs :
    let new : Lexer Pattern.engine Nat := ofText "a"
    let l := new.after [.lex, countAs, .lex]
    (new.answers ([] ++ .lex :: [countAs, .lex])).eraseIdx 0 = new.answers ([] ++ [countAs, .lex]) ∧
    ((l.after (.lex :: [.start])).call countAs).1 = .error .rulesLocked ∧
    ((l.after (.lex :: [.start])).call .lex).1 = .ok (.next none) := by
  intro new l
  obtain ⟨hfails, hend⟩ : ((new.after []).call .lex).1 = .error .noRules ∧
      (l.call .lex).1 = .ok (.next none) := by
    decide +kernel
  obtain ⟨hfailed, -⟩ := calls_safe "a" [] [countAs, .lex]
  obtain ⟨-, hstarted, -, hfinished⟩ := calls_safe "a" [.lex, countAs, .lex] [.start]
  exact ⟨(hfailed .lex _ hfails).2.1, (hstarted .lex _ rfl hend).1 "a" _, (hfinished hend).1⟩

end CStruct.Lexer
