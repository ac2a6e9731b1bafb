import CStruct.Pattern.Matching
import Mathlib.Data.List.Basic

/-!
# The preferences of a pattern

`Pattern.ends` lists where the matches of a pattern at a cursor end, the preferred ones first. It
tries one possibility after another, as the words on the constructors of `Pattern` say, and knows
nothing of automata. A pattern is steady when its unbounded repetitions read something in every
round; for these the list is finite and says everything about the pattern.
-/

namespace CStruct.Pattern

/-! ## All matches in order -/

/-- Where at most `most` rounds of a body end, if the rounds of the body end where `body` says. -/
def endsOfRounds (greedy : Bool) (body : Cursor → List Cursor) : Nat → Cursor → List Cursor
  | 0, c => [c]
  | most + 1, c =>
    let further := (body c).flatMap (endsOfRounds greedy body most)
    if greedy then further ++ [c] else c :: further

/-- Where a repetition ends. Without a bound there are as many rounds as there are characters. -/
def endsOfRep (greedy : Bool) (body : Cursor → List Cursor) :
    Nat → Option Nat → Cursor → List Cursor
  | 0, most, c => endsOfRounds greedy body (most.getD c.rest.length) c
  | least + 1, most, c =>
    (body c).flatMap (endsOfRep greedy body least (most.map (· - 1)))

/-- Where the matches of a pattern at a cursor end, the preferred ones first. -/
def ends : Pattern → Cursor → List Cursor
  | .empty, c => [c]
  | .char set, c =>
    match c.rest with
    | [] => []
    | ch :: rest => if set.holds ch then [c.pass ch rest] else []
  | .wordBoundary, c => if c.atWordBoundary then [c] else []
  | .seq p q, c => (p.ends c).flatMap q.ends
  | .alt p q, c => p.ends c ++ q.ends c
  | .rep least most greedy p, c => endsOfRep greedy p.ends least most c
  | .group _ p, c => p.ends c

/-- Whether every unbounded repetition in a pattern reads something in each round. -/
def isSteady : Pattern → Bool
  | .empty | .char _ | .wordBoundary => true
  | .seq p q | .alt p q => p.isSteady && q.isSteady
  | .rep _ most _ p => p.isSteady && (most.isSome || !p.canBeEmpty)
  | .group _ p => p.isSteady

/-! ## How much a match reads -/

section Length

variable {body : Cursor → List Cursor} {n : Nat}

theorem length_of_mem_endsOfRounds (hbody : ∀ c, ∀ d ∈ body c, d.rest.length + n ≤ c.rest.length)
    {greedy : Bool} {most : Nat} {c d : Cursor} (hd : d ∈ endsOfRounds greedy body most c) :
    d.rest.length ≤ c.rest.length := by
  induction most generalizing c with
  | zero =>
    cases List.mem_singleton.1 hd
    exact Nat.le_refl _
  | succ most ih =>
    have further : d = c ∨ d ∈ (body c).flatMap (endsOfRounds greedy body most) := by
      rw [endsOfRounds] at hd
      cases greedy
      · simpa using hd
      · simpa [or_comm] using hd
    rcases further with rfl | hd
    · exact Nat.le_refl _
    · obtain ⟨e, he, hd⟩ := List.mem_flatMap.1 hd
      have := ih hd
      have := hbody c e he
      omega

theorem length_of_mem_endsOfRep (hbody : ∀ c, ∀ d ∈ body c, d.rest.length + n ≤ c.rest.length)
    {greedy : Bool} {least : Nat} {most : Option Nat} {c d : Cursor}
    (hd : d ∈ endsOfRep greedy body least most c) :
    d.rest.length + least * n ≤ c.rest.length := by
  induction least generalizing most c with
  | zero =>
    rw [Nat.zero_mul, Nat.add_zero]
    exact length_of_mem_endsOfRounds hbody hd
  | succ least ih =>
    obtain ⟨e, he, hd⟩ := List.mem_flatMap.1 hd
    have hrest := ih hd
    have hround := hbody c e he
    rw [Nat.succ_mul]
    omega

end Length

/-- A match reads at least as many characters as the shortest text that fits. -/
theorem length_of_mem_ends {p : Pattern} {n : Nat} (hp : p.leastLength? = some n) {c d : Cursor}
    (hd : d ∈ p.ends c) : d.rest.length + n ≤ c.rest.length := by
  -- on the pattern; what a repetition adds up to is `length_of_mem_endsOfRep`
  induction p generalizing n c d with
  | empty =>
    cases hp
    rw [List.mem_singleton.1 hd]
    exact Nat.le_refl _
  | char set =>
    simp only [leastLength?] at hp
    split at hp
    · cases hp
    · cases hp
      rw [ends] at hd
      split at hd
      · cases hd
      · rename_i ch rest hrest
        split at hd
        · rw [List.mem_singleton.1 hd, hrest]
          exact Nat.le_refl _
        · cases hd
  | wordBoundary =>
    cases hp
    rw [ends] at hd
    split at hd
    · rw [List.mem_singleton.1 hd]
      exact Nat.le_refl _
    · cases hd
  | seq p q ihp ihq =>
    simp only [leastLength?, Option.bind_eq_bind, Option.bind_eq_some_iff, Option.pure_def,
      Option.some.injEq] at hp
    obtain ⟨k, hk, m, hm, rfl⟩ := hp
    obtain ⟨e, he, hd⟩ := List.mem_flatMap.1 hd
    have := ihp hk he
    have := ihq hm hd
    omega
  | alt p q ihp ihq =>
    simp only [leastLength?, Option.bind_eq_bind, Option.bind_eq_some_iff, Option.pure_def,
      Option.some.injEq] at hp
    obtain ⟨k, hk, m, hm, rfl⟩ := hp
    rcases List.mem_append.1 hd with hd | hd
    · have := ihp hk hd
      omega
    · have := ihq hm hd
      omega
  | rep least most greedy p ih =>
    simp only [leastLength?, Option.map_eq_some_iff] at hp
    obtain ⟨k, hk, rfl⟩ := hp
    exact length_of_mem_endsOfRep (fun c d hd => ih hk hd) hd
  | group name? p ih => exact ih hp hd

/-- What cannot be empty reads something. -/
theorem length_lt_of_mem_ends {p : Pattern} (hp : p.canBeEmpty = false) {c d : Cursor}
    (hd : d ∈ p.ends c) : d.rest.length < c.rest.length := by
  rw [canBeEmpty, decide_eq_false_iff_not] at hp
  cases hn : p.leastLength? with
  | none =>
    rw [hn] at hp
    exact absurd rfl hp
  | some n =>
    rw [hn, Option.getD_some] at hp
    have := length_of_mem_ends hn hd
    omega

/-! ## Rounds without a bound -/

/-- More rounds than characters make no difference. -/
theorem endsOfRounds_eq {greedy : Bool} {body : Cursor → List Cursor}
    (hbody : ∀ c, ∀ d ∈ body c, d.rest.length < c.rest.length) {most : Nat} {c : Cursor}
    (h : c.rest.length ≤ most) :
    endsOfRounds greedy body most c = endsOfRounds greedy body c.rest.length c := by
  induction most using Nat.strongRecOn generalizing c with
  | ind most ih =>
    cases most with
    | zero => rw [Nat.le_zero.1 h]
    | succ most =>
      cases hlen : c.rest.length with
      | zero =>
        -- Nothing is left to read, so no round of the body ends anywhere.
        have hnone : body c = [] := by
          refine List.eq_nil_iff_forall_not_mem.2 fun d hd => ?_
          have := hbody c d hd
          omega
        cases greedy <;> simp [endsOfRounds, hnone]
      | succ k =>
        have further : ∀ d ∈ body c,
            endsOfRounds greedy body most d = endsOfRounds greedy body k d := by
          intro d hd
          have := hbody c d hd
          rw [ih most (Nat.lt_succ_self most) (by omega), ih k (by omega) (by omega)]
        rw [endsOfRounds, endsOfRounds, List.flatMap_congr further]

/-- One more round, if there is one, and then any number of them. -/
theorem ends_zeroOrMore {p : Pattern} (hp : p.canBeEmpty = false) (greedy : Bool) (c : Cursor) :
    (rep 0 none greedy p).ends c =
      if greedy then (p.ends c).flatMap (rep 0 none greedy p).ends ++ [c]
      else c :: (p.ends c).flatMap (rep 0 none greedy p).ends := by
  have hbody : ∀ c, ∀ d ∈ p.ends c, d.rest.length < c.rest.length :=
    fun c d hd => length_lt_of_mem_ends hp hd
  change endsOfRounds greedy p.ends c.rest.length c = _
  rw [← endsOfRounds_eq hbody (Nat.le_succ _), endsOfRounds]
  have further : (p.ends c).flatMap (endsOfRounds greedy p.ends c.rest.length) =
      (p.ends c).flatMap (rep 0 none greedy p).ends := by
    refine List.flatMap_congr fun d hd => ?_
    exact endsOfRounds_eq hbody (Nat.le_of_lt (hbody c d hd))
  rw [further]

end CStruct.Pattern
