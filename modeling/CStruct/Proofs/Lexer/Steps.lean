import CStruct.Lexer
import CStruct.Proofs.Lexer.Positions

/-!
# Steps of a lexer

`Stepped` says all that one step of a lexer can do: go past a match and hand it to the rule that
claims it, go past an empty match and the character behind it, or come to the end. There are three
ways to the end: nothing is found, what is found is empty and at the very end of the text, or no rule
claims it. Whatever the engine finds, a step that is not the last one leaves less of the text
(`step_lt`).
-/

namespace CStruct.Lexer

variable {E : PatternEngine} {α : Type} {l l' : Lexer E α} {regex : E.Regex}

/-! ## Claims -/

/-- A match is claimed by the first rule whose group took part in it. -/
theorem claim?_eq_some_iff {m : Match} {count number : Nat} :
    claim? count m = some number ↔
      number < count ∧ Rule.groupName number ∈ m.groups ∧
        ∀ i < number, Rule.groupName i ∉ m.groups := by
  rw [claim?, List.find?_range_eq_some]
  simp only [List.mem_range, Bool.not_eq_true', List.contains_eq_mem, decide_eq_true_eq,
    decide_eq_false_iff_not, and_left_comm]

theorem claim?_eq_none_iff {m : Match} {count : Nat} :
    claim? count m = none ↔ ∀ i < count, Rule.groupName i ∉ m.groups := by
  simp [claim?]

/-! ## Steps -/

/-- What a step of a lexer can do. -/
inductive Stepped (l : Lexer E α) (regex : E.Regex) : Lexer E α × Outcome α → Prop
  /-- Nothing is found. -/
  | missed (h : E.find? regex l.source l.offset = none) : Stepped l regex (l.finish, .ended)
  /-- What is found is at the very end of the text. -/
  | atEnd {m : Match} (h : E.find? regex l.source l.offset = some m)
      (hend : m.start = l.source.length) : Stepped l regex ((l.moveTo m.start).finish, .ended)
  /-- No rule claims what is found. -/
  | unclaimed {m : Match} (h : E.find? regex l.source l.offset = some m) (hlt : m.start < m.stop)
      (hnone : claim? l.rules.length m = none) :
      Stepped l regex ((l.moveTo m.start).finish, .ended)
  /-- An empty match is passed together with the character behind it. -/
  | passed {m : Match} (h : E.find? regex l.source l.offset = some m) (hempty : m.stop = m.start)
      (hlt : m.start < l.source.length) :
      Stepped l regex ((l.moveTo m.start).moveTo (m.start + 1), .passed)
  /-- Text is handed to the action of a rule. -/
  | fired {m : Match} {number r} (h : E.find? regex l.source l.offset = some m)
      (hlt : m.start < m.stop) (hclaim : claim? l.rules.length m = some number) (hr : l.rules[number]? = some r) :
      Stepped l regex (((l.moveTo m.start).moveTo m.stop).counting number,
        .ofAnswer (r.action (r.calls + 1) (String.ofList ((l.source.take m.stop).drop m.start))
          ⟨(l.moveTo m.start).position, ((l.moveTo m.start).moveTo m.stop).position⟩))

theorem stepped (l : Lexer E α) (regex : E.Regex) : Stepped l regex (l.step regex) := by
  unfold step
  split
  · rename_i hnone
    exact .missed hnone
  · rename_i m hsome
    obtain ⟨-, hle, hstop⟩ := E.bounds hsome
    dsimp only
    split
    · rename_i hlt
      split
      · rename_i number hclaim
        have hnumber : number < l.rules.length := (claim?_eq_some_iff.1 hclaim).1
        have hr := List.getElem?_eq_getElem hnumber
        have hfired := Stepped.fired hsome hlt hclaim hr
        rw [fire]
        show Stepped l regex (_, Outcome.ofAnswer (l.rules[number]?.bind _))
        rwa [hr, Option.bind_some]
      · rename_i hnone
        exact .unclaimed hsome hlt hnone
    · rename_i hempty
      split
      · rename_i hlt
        exact .passed hsome (by omega) hlt
      · rename_i hend
        have hend : ¬m.start < l.source.length := hend
        exact .atEnd hsome (by omega)

theorem Outcome.passed_ne_ended : (.passed : Outcome α) ≠ .ended := nofun

theorem Outcome.yielded_ne_ended (result : α) : Outcome.yielded result ≠ .ended := nofun

/-- A step that is not the last one passes some text, and the lexer keeps running. -/
theorem step_lt {outcome : Outcome α} (h : l.step regex = (l', outcome)) (hmore : outcome ≠ .ended) :
    l'.left < l.left ∧ l'.phase = l.phase := by
  have hstepped := stepped l regex
  rw [h] at hstepped
  cases hstepped with
  | missed | atEnd | unclaimed => exact absurd rfl hmore
  | @passed m hsome hempty hlt =>
    have hbounds := E.bounds hsome
    refine ⟨?_, rfl⟩
    show l.source.length - (m.start + 1) < l.source.length - l.offset
    omega
  | @fired m number r hsome hlt =>
    have hbounds := E.bounds hsome
    refine ⟨?_, rfl⟩
    show l.source.length - m.stop < l.source.length - l.offset
    omega

/-- Going on to where the lexer stands is no move. -/
theorem moveTo_offset (l : Lexer E α) : l.moveTo l.offset = l := by
  have htext : l.textTo l.offset = [] := List.drop_eq_nil_of_le (List.length_take_le ..)
  rw [moveTo, htext]
  rfl

/-- At the end of the text there is nothing more to claim. -/
theorem step_of_left_eq_zero (h : l.left = 0) (regex : E.Regex) :
    l.step regex = (l.finish, .ended) := by
  have hoffset : l.source.length ≤ l.offset := Nat.le_of_sub_eq_zero h
  have hstepped := stepped l regex
  generalize l.step regex = out at hstepped
  cases hstepped with
  | missed => rfl
  | @atEnd m hsome hend =>
    have hbounds := E.bounds hsome
    rw [show m.start = l.offset by omega, moveTo_offset]
  | unclaimed hsome hlt | passed hsome _ hlt | fired hsome hlt =>
    have hbounds := E.bounds hsome
    omega

end CStruct.Lexer
