import CStruct.Proofs.Lexer.Invocations

/-!
# Where a lexer ends

A lexer goes from match to match. Behind an empty match it passes one more character, so that it
gets on. Where no further match is found it is finished, and it stays where the last match has left
it: text that is not matched is passed before a match, and not at the end. A match that no rule
claims ends the lexer as well, and then it stays before that match. So the position of a finished
lexer is that of the end of the text if and only if nothing is left behind the place where it stays.
-/

namespace CStruct.Lexer

variable {E : PatternEngine} {α : Type} {regex : E.Regex} {count : Nat} {cs : List Char} {o : Nat}
  {l l' : Lexer E α}

/-! ## From match to match -/

/-- The offset `o` is where a lexer with so many rules gets from the start of the text, from one
match to the next. Behind an empty match it is one character further on, unless the text is at its
end. -/
inductive Gets (regex : E.Regex) (count : Nat) (cs : List Char) : Nat → Prop
  | start : Gets regex count cs 0
  | next {o : Nat} {m} (h : Gets regex count cs o) (hm : E.IsLeftmost regex cs o m)
      (hclaimed : m.start < m.stop → ∃ i < count, Rule.groupName i ∈ m.groups) :
      Gets regex count cs (min (max m.stop (m.start + 1)) cs.length)

/-- The offset `o` is where a lexer with so many rules ends. -/
inductive EndsAt (regex : E.Regex) (count : Nat) (cs : List Char) : Nat → Prop
  /-- It has got to the end of the text. -/
  | all (h : Gets regex count cs cs.length) : EndsAt regex count cs cs.length
  /-- Nothing matches behind the last match. -/
  | last {o : Nat} (h : Gets regex count cs o) (hrest : ∀ s, o ≤ s → E.matchAt? regex cs s = none) :
      EndsAt regex count cs o
  /-- No rule claims the next match. -/
  | unclaimed {o : Nat} {m} (h : Gets regex count cs o) (hm : E.IsLeftmost regex cs o m)
      (hlt : m.start < m.stop) (hnone : ∀ i < count, Rule.groupName i ∉ m.groups) :
      EndsAt regex count cs m.start

theorem Gets.le (h : Gets regex count cs o) : o ≤ cs.length := by
  cases h with
  | start => exact Nat.zero_le _
  | next => exact Nat.min_le_right _ _

theorem EndsAt.le (h : EndsAt regex count cs o) : o ≤ cs.length := by
  cases h with
  | all => exact Nat.le_refl _
  | last h => exact h.le
  | unclaimed _ hm =>
    obtain ⟨hstop, hlast⟩ := E.bounds_of_matchAt? hm.here
    exact Nat.le_trans hstop hlast

/-! ## The lexer at its end -/

/-- Counting a call changes nothing about how the rules are written. -/
theorem writtenRules_congr (h : l'.ruleSet = l.ruleSet) : l'.writtenRules = l.writtenRules := by
  have hwritten (l : Lexer E α) : l.writtenRules = "|".intercalate
      (l.ruleSet.mapIdx fun i r => s!"(?P<{Rule.groupName i}>{r.written})") := by
    rw [writtenRules, ruleSet]
    congr 1
    apply List.ext_getElem?
    intro i
    rw [List.getElem?_mapIdx, List.getElem?_mapIdx, List.getElem?_map, Option.map_map]
    rfl
  rw [hwritten, hwritten, h]

theorem length_rules_congr (h : l'.ruleSet = l.ruleSet) : l'.rules.length = l.rules.length := by
  have hlength := congrArg List.length h
  rwa [ruleSet, ruleSet, List.length_map, List.length_map] at hlength

/-- Once all results have been collected, a lexer that had been started is finished. -/
theorem follows_collect (hphase : l.phase ≠ .configuring) {left : Nat} (hleft : l.left ≤ left) :
    l.Follows (collect left l).2 ∧ (collect left l).2.phase = .finished := by
  have hfollows := follows_next l
  have hnone := phase_next hphase
  induction left generalizing l with
  | zero =>
    rw [collect_of_left_eq_zero (Nat.le_zero.1 hleft)]
    refine ⟨hfollows, hnone ?_⟩
    cases hresult : l.next.1 with
    | none => rfl
    | some result =>
      have hlt := next_lt (Prod.ext hresult rfl)
      omega
  | succ left ih =>
    rw [collect]
    split
    · rename_i heq
      rw [heq] at hfollows hnone
      exact ⟨hfollows, hnone rfl⟩
    · rename_i result l' heq
      have hlt := next_lt heq
      rw [heq] at hfollows
      have hphase' : l'.phase ≠ .configuring := hfollows.started hphase
      obtain ⟨hrest, hfinished⟩ := ih hphase' (by omega) (follows_next l') (phase_next hphase')
      exact ⟨hfollows.trans hrest, hfinished⟩

/-! ## The lexer on its way -/

/-- A lexer is at the start of the text as long as rules can be added. When it runs, it stands where
its rules get, and once it is finished, its position is where it ends. -/
inductive Standing (cs : List Char) (l : Lexer E α) : Prop
  | configuring (hphase : l.phase = .configuring) (hat : At cs l) (hoffset : l.offset = 0)
  | running {regex : E.Regex} (hphase : l.phase = .running regex)
      (hread : E.read? l.writtenRules = .ok regex) (hat : At cs l) (hgets : Gets regex l.rules.length cs l.offset)
  | finished {regex : E.Regex} {o : Nat} (hphase : l.phase = .finished)
      (hread : E.read? l.writtenRules = .ok regex) (hends : EndsAt regex l.rules.length cs o)
      (hposition : l.position = .ofOffset cs o)

namespace Standing

section Step

variable (hE : E.LeftmostFirst) (hphase : l.phase = .running regex)
  (hread : E.read? l.writtenRules = .ok regex) (hat : At cs l)
  (hgets : Gets regex l.rules.length cs l.offset)
include hE hphase hread hat hgets

/-- Each step leads to another place where the rules get, or to where the lexer ends. -/
theorem step : Standing cs (l.step regex).1 := by
  obtain rfl := hat.source
  have hstepped := stepped l regex
  generalize l.step regex = out at hstepped
  cases hstepped with
  | missed h =>
    exact .finished rfl hread (.last hgets fun s hs => hE.matchAt?_of_find?_none h hs) hat.position
  | @atEnd m h hend =>
    have hm := hE.isLeftmost h
    have hnext := hgets.next hm (fun hlt => by have hstop := (E.bounds h).2.2; omega)
    rw [show min _ l.source.length = m.start by omega] at hnext
    refine .finished rfl hread ?_ (hat.moveTo hm.le (Nat.le_of_eq hend)).position
    show EndsAt regex l.rules.length l.source m.start
    rw [hend] at hnext ⊢
    exact .all hnext
  | @unclaimed m h hlt hnone =>
    have hm := hE.isLeftmost h
    have hstop := (E.bounds h).2.2
    exact .finished rfl hread (.unclaimed hgets hm hlt (claim?_eq_none_iff.1 hnone))
      (hat.moveTo hm.le (by omega)).position
  | @passed m h hempty hlt =>
    have hm := hE.isLeftmost h
    have hnext := hgets.next hm (fun hlt => by omega)
    rw [show min _ l.source.length = m.start + 1 by omega] at hnext
    exact .running hphase hread
      ((hat.moveTo hm.le (Nat.le_of_lt hlt)).moveTo (Nat.le_succ _) hlt) hnext
  | @fired m number r h hlt hclaim hr =>
    have hm := hE.isLeftmost h
    have hstop := (E.bounds h).2.2
    obtain ⟨hnumber, hgroup, -⟩ := claim?_eq_some_iff.1 hclaim
    have hnext := hgets.next hm fun _ => ⟨number, hnumber, hgroup⟩
    rw [show min _ l.source.length = m.stop by omega] at hnext
    -- the call is counted, which does not change how the rules are written
    have hsame : (((l.moveTo m.start).moveTo m.stop).counting number).ruleSet = l.ruleSet :=
      map_uncounted_modify l.rules number
    refine .running hphase ?_
      (((hat.moveTo hm.le (by omega)).moveTo (Nat.le_of_lt hlt) hstop).counting number) ?_
    · rwa [writtenRules_congr hsame]
    · rwa [length_rules_congr hsame]

end Step

theorem loop (hE : E.LeftmostFirst) {result? : Option α} (hloop : Loop regex l result? l')
    (h : Standing cs l) (hphase : l.phase = .running regex) : Standing cs l' := by
  have hstep {l : Lexer E α} (h : Standing cs l) (hphase : l.phase = .running regex) :
      Standing cs (l.step regex).1 := by
    cases h with
    | configuring hphase' | finished hphase' =>
      rw [hphase] at hphase'
      cases hphase'
    | running hphase' hread hat hgets =>
      rw [hphase] at hphase'
      cases hphase'
      exact step hE hphase hread hat hgets
  induction hloop with
  | ended heq | yielded heq =>
    have hstanding := hstep h hphase
    rwa [heq] at hstanding
  | passed heq _ ih =>
    have hstanding := hstep h hphase
    rw [heq] at hstanding
    exact ih hstanding ((step_lt heq Outcome.passed_ne_ended).2.trans hphase)

theorem next (hE : E.LeftmostFirst) (h : Standing cs l) : Standing cs l.next.2 := by
  cases hphase : l.phase with
  | running regex => exact loop hE (loop_next hphase) h hphase
  | configuring | finished =>
    rw [Lexer.next, hphase]
    exact h

theorem start (h : Standing cs l) (hstart : l.start = .ok l') : Standing cs l' := by
  by_cases hphase : l.phase = .configuring
  · obtain ⟨regex, hread, rfl⟩ := eq_of_start hstart hphase
    cases h with
    | configuring _ hat hoffset =>
      refine .running rfl hread ⟨hat.source, hat.le, hat.position⟩ ?_
      show Gets _ _ _ l.offset
      rw [hoffset]
      exact .start
    | running hphase' | finished hphase' =>
      rw [hphase] at hphase'
      cases hphase'
  · rw [start_of_started hphase] at hstart
    exact Except.ok.inj hstart ▸ h

/-- As long as rules can be added, the lexer stands at the start. -/
theorem addRule {written : String} {action : Nat → String → Span → Option α}
    (h : Standing cs l) (hadd : l.addRule written action = .ok l') : Standing cs l' := by
  unfold Lexer.addRule at hadd
  split at hadd
  · rename_i hphase
    split at hadd
    · cases hadd
      cases h with
      | configuring _ hat hoffset =>
        exact .configuring hphase ⟨hat.source, hat.le, hat.position⟩ hoffset
      | running hphase' | finished hphase' =>
        rw [hphase] at hphase'
        cases hphase'
    · cases hadd
  · cases hadd

/-- Whatever is called, the lexer stands where its rules get. -/
theorem call (hE : E.LeftmostFirst) (h : Standing cs l) (c : Call α) :
    Standing cs (l.call c).2 := by
  cases c with
  | addRule written action =>
    rw [call_addRule]
    split
    · rename_i hadd
      exact h.addRule hadd
    · exact h
  | start =>
    rw [call_start]
    split
    · rename_i hstart
      exact h.start hstart
    · exact h
  | lex =>
    rw [call_lex]
    split
    · rename_i hstart
      exact (h.start hstart).next hE
    · exact h

theorem after (hE : E.LeftmostFirst) (h : Standing cs l) (calls : List (Call α)) :
    Standing cs (l.after calls) := by
  induction calls generalizing l with
  | nil => exact h
  | cons c calls ih => exact ih (h.call hE c)

theorem collect (hE : E.LeftmostFirst) (h : Standing cs l) (left : Nat) :
    Standing cs (collect left l).2 := by
  induction left generalizing l with
  | zero => exact h.next hE
  | succ left ih =>
    have hnext := h.next hE
    rw [Lexer.collect]
    split
    · rename_i heq
      rwa [heq] at hnext
    · rename_i heq
      rw [heq] at hnext
      exact ih hnext

theorem ofRules (source : String) (rs : List (Rule α)) :
    Standing source.toList (ofRules source rs : Lexer E α) :=
  .configuring rfl ⟨rfl, Nat.zero_le _, rfl⟩ rfl

/-- A finished lexer ends where its rules get. -/
theorem endsAt (h : Standing cs l) (hphase : l.phase = .finished) :
    ∃ regex o, E.read? l.writtenRules = .ok regex ∧ EndsAt regex l.rules.length cs o ∧
      l.position = .ofOffset cs o := by
  cases h with
  | configuring hphase' | running hphase' =>
    rw [hphase] at hphase'
    cases hphase'
  | @finished regex o _ hread hends hposition => exact ⟨regex, o, hread, hends, hposition⟩

end Standing

end CStruct.Lexer
