import CStruct.Parse.Declaration

/-!
# How the readers go on

The readers of declarators, of statements and of whole sources read one part and either stop behind
it or go on with what is left of the fuel. What each of them can do is said here once.
-/

namespace CStruct.Parse

open SymbolTable

variable {t : SymbolTable} {s s' : State} {keyword : SymbolId} {fuel : Nat}
  {names : List SymbolId}

/-- A comma goes on with another declarator. -/
theorem declarators_cases (h : declarators t keyword fuel s = some s') :
    ∃ s₁, declarator t keyword s = some s₁ ∧ (s₁.check "," = false ∧ s' = s₁ ∨
      s₁.check "," = true ∧ ∃ rest, fuel = rest + 1 ∧
        declarators t keyword rest (s₁.advance t) = some s') := by
  unfold declarators at h
  cases hread : declarator t keyword s with
  | none =>
    rw [hread] at h
    cases h
  | some s₁ =>
    rw [hread] at h
    dsimp only at h
    refine ⟨s₁, rfl, ?_⟩
    split at h
    · rename_i hcomma
      cases fuel with
      | zero => cases h
      | succ rest => exact .inr ⟨hcomma, rest, rfl, h⟩
    · rename_i hcomma
      exact .inl ⟨Bool.eq_false_iff.2 hcomma, (Option.some.inj h).symm⟩

/-- Reads the statements of the body of a struct. -/
def bodyReader (t : SymbolTable) (fuel : Nat) (s : State) : Option State :=
  (statements t fuel s).map Prod.snd

theorem bodyReader_cases (h : bodyReader t fuel s = some s') :
    ∃ names, statements t fuel s = some (names, s') := by
  obtain ⟨⟨names, s₁⟩, hread, rfl⟩ := Option.map_eq_some_iff.1 h
  exact ⟨names, hread⟩

/-- The statements of a body come to an end, or one is read before the others. -/
theorem statements_cases (h : statements t fuel s = some (names, s')) :
    (s.atClose = true ∧ names = [] ∧ s' = s) ∨
    (s.atClose = false ∧ ∃ rest name? s₁ others, fuel = rest + 1 ∧
      names = name?.toList ++ others ∧
      statement t (bodyReader t rest) s = some (name?, s₁) ∧
      statements t rest s₁ = some (others, s')) := by
  unfold statements at h
  cases hclose : s.atClose with
  | true =>
    rw [hclose, if_pos rfl] at h
    cases h
    exact .inl ⟨rfl, rfl, rfl⟩
  | false =>
    rw [hclose, if_neg Bool.false_ne_true] at h
    cases fuel with
    | zero => cases h
    | succ rest =>
      dsimp only at h
      split at h
      · cases h
      · rename_i name? s₁ h₁
        obtain ⟨⟨others, s₂⟩, h₂, heq⟩ := Option.map_eq_some_iff.1 h
        cases heq
        exact .inr ⟨rfl, rest, name?, s₁, others, rfl, rfl, h₁, h₂⟩

/-- The statements of a source come to its end, or to a brace that closes nothing. -/
theorem program_cases (h : program t fuel s = some (names, s')) :
    ∃ first s₁, statements t s.fuel s = some (first, s₁) ∧
      (s₁.check endId = true ∧ names = first ∧ s' = s₁ ∨
        s₁.check endId = false ∧ ∃ rest others, fuel = rest + 1 ∧ names = first ++ others ∧
          program t rest ((s₁.report s₁.token (.unexpected s₁.current.value)).advance t) =
            some (others, s')) := by
  unfold program at h
  split at h
  · cases h
  · rename_i first s₁ h₁
    refine ⟨first, s₁, h₁, ?_⟩
    split at h
    · rename_i hend
      cases h
      exact .inl ⟨hend, rfl, rfl⟩
    · rename_i hend
      cases fuel with
      | zero => cases h
      | succ rest =>
        obtain ⟨⟨others, s₂⟩, h₂, heq⟩ := Option.map_eq_some_iff.1 h
        cases heq
        exact .inr ⟨Bool.eq_false_iff.2 hend, rest, others, rfl, rfl, h₂⟩

end CStruct.Parse
