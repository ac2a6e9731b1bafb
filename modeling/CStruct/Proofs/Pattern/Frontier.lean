import CStruct.Proofs.Pattern.Backtracking
import Mathlib.Order.Lattice.Nat
import Mathlib.Data.List.Nodup

/-!
# Entering every state once

Matching enters no state twice at a cursor. A state that comes up again has either failed already, or
stands behind what has succeeded: it cannot be waiting for its own outcome, since what it waits for
takes fewer states to settle (`Covered`). So nothing is lost (`tried_follow`), and going through the
text with all states at once is the same as backtracking. `matchAt?_ofPattern` concludes that the
automaton of a steady pattern finds the preferred match.
-/

namespace CStruct.Automaton

variable {a : Automaton} {c : Cursor}

/-! ## The outcome of a state -/

open Classical in
/-- What backtracking from a state comes to, if it comes to an end. -/
noncomputable def best (a : Automaton) (c : Cursor) (i : Nat) : Option Cursor :=
  if h : ∃ r, a.Settles i c r then h.choose else none

/-- How many states backtracking needs at least before a character is read. -/
noncomputable def depth (a : Automaton) (c : Cursor) (i : Nat) : Nat :=
  sInf {n | ∃ r, a.Yields n i c r}

theorem best_eq {i : Nat} {r : Option Cursor} (h : a.Settles i c r) : a.best c i = r := by
  have hex : ∃ r, a.Settles i c r := ⟨r, h⟩
  rw [best, dif_pos hex]
  obtain ⟨n, h'⟩ := hex.choose_spec
  obtain ⟨m, h⟩ := h
  exact h'.unique h

theorem depth_le {n i : Nat} {r : Option Cursor} (h : a.Yields n i c r) : a.depth c i ≤ n :=
  Nat.sInf_le ⟨r, h⟩

/-- Backtracking from a state comes to an end. -/
def Halts (a : Automaton) (c : Cursor) (i : Nat) : Prop := ∃ r, a.Settles i c r

/-- The shortest way to settle a state. -/
theorem Halts.yields {i : Nat} (h : a.Halts c i) :
    ∃ n r, a.Yields n i c r ∧ a.depth c i = n ∧ a.best c i = r := by
  obtain ⟨r, n, h⟩ := h
  obtain ⟨r', h'⟩ := Nat.sInf_mem (s := {n | ∃ r, a.Yields n i c r}) ⟨n, r, h⟩
  exact ⟨_, r', h', rfl, best_eq ⟨_, h'⟩⟩

/-- Where `i` goes on at once to the states in `succs`, they come to all that `i` comes to, and take
fewer states to do so. -/
structure Defers (a : Automaton) (c : Cursor) (i : Nat) (succs : List Nat) : Prop where
  halts : ∀ j ∈ succs, a.Halts c j
  depth_lt : ∀ j ∈ succs, a.depth c j < a.depth c i
  best_eq : a.best c i = succs.findSome? (a.best c)

theorem Halts.defers_go {i next : Nat} (h : a.Halts c i) (hs : a.states[i]? = some (.go next)) :
    a.Defers c i [next] := by
  obtain ⟨n, r, h, hn, hr⟩ := h.yields
  cases h with
  | go hs' h =>
    rw [hs] at hs'
    cases hs'
    have := depth_le h
    refine ⟨fun j hj => ?_, fun j hj => ?_, ?_⟩
    · rw [List.mem_singleton.1 hj]
      exact ⟨_, _, h⟩
    · rw [List.mem_singleton.1 hj]
      omega
    · rw [hr, List.findSome?_singleton, best_eq ⟨_, h⟩]
  | _ => simp_all

theorem Halts.defers_boundary {i next : Nat} (h : a.Halts c i)
    (hs : a.states[i]? = some (.wordBoundary next)) :
    a.Defers c i (if c.atWordBoundary then [next] else []) := by
  obtain ⟨n, r, h, hn, hr⟩ := h.yields
  cases h with
  | boundary hs' hc h =>
    rw [hs] at hs'
    cases hs'
    rw [if_pos hc]
    have := depth_le h
    refine ⟨fun j hj => ?_, fun j hj => ?_, ?_⟩
    · rw [List.mem_singleton.1 hj]
      exact ⟨_, _, h⟩
    · rw [List.mem_singleton.1 hj]
      omega
    · rw [hr, List.findSome?_singleton, best_eq ⟨_, h⟩]
  | noBoundary hs' hc =>
    rw [hc]
    exact ⟨nofun, nofun, hr⟩
  | _ => simp_all

theorem Halts.defers_fork {i first second : Nat} (h : a.Halts c i)
    (hs : a.states[i]? = some (.fork first second)) : a.Defers c i [first, second] := by
  obtain ⟨n, r, h, hn, hr⟩ := h.yields
  cases h with
  | @fork n m _ _ _ _ r r' hs' h h' =>
    rw [hs] at hs'
    cases hs'
    have := depth_le h
    have := depth_le h'
    have hpair : ∀ {P : Nat → Prop} {j : Nat}, P first → P second → j ∈ [first, second] → P j := by
      intro P j h h' hj
      rcases List.mem_cons.1 hj with rfl | hj
      · exact h
      · rwa [List.mem_singleton.1 hj]
    refine ⟨fun j => hpair ⟨_, _, h⟩ ⟨_, _, h'⟩, fun j => ?_, ?_⟩
    · exact hpair (P := fun j => a.depth c j < a.depth c i) (by omega) (by omega)
    · rw [hr, List.findSome?_cons, List.findSome?_singleton, best_eq ⟨_, h⟩, best_eq ⟨_, h'⟩]
      cases r <;> rfl
  | _ => simp_all

theorem Halts.best_accept {i : Nat} (h : a.Halts c i) (hs : a.states[i]? = some .accept) :
    a.best c i = some c := by
  obtain ⟨n, r, h, -, hr⟩ := h.yields
  cases h with
  | accept => exact hr
  | _ => simp_all

theorem Halts.lt_size {i : Nat} (h : a.Halts c i) : i < a.states.size := by
  obtain ⟨r, n, h⟩ := h
  refine Classical.byContradiction fun hi => ?_
  have hnone := Array.getElem?_eq_none (Nat.le_of_not_lt hi)
  cases h <;> simp_all

/-! ## States that were seen -/

/-- There is room for each state once. -/
theorem length_le_of_nodup {seen : List Nat} {n : Nat} (h : seen.Nodup) (hlt : ∀ i ∈ seen, i < n) :
    seen.length ≤ n := by
  have hsub : seen ⊆ List.range n := fun i hi => List.mem_range.2 (hlt i hi)
  simpa using (h.subperm hsub).length_le

/-- Whatever a state in `seen` comes to, one of the next states in `todo` comes to as well, before
any that could lead back to it. -/
def Covered (a : Automaton) (c : Cursor) (seen todo : List Nat) : Prop :=
  ∀ i ∈ seen, ∃ k, (∀ j ∈ todo.take k, a.depth c j < a.depth c i) ∧
    ((a.best c i).isSome → ∃ j ∈ todo.take k, (a.best c j).isSome)

/-- A state gives way to those that it defers to. -/
theorem Covered.replace {seen todo succs : List Nat} {i : Nat}
    (h : a.Covered c seen (i :: todo)) (hlt : ∀ j ∈ succs, a.depth c j < a.depth c i)
    (hbest : (a.best c i).isSome → ∃ j ∈ succs, (a.best c j).isSome) :
    a.Covered c (i :: seen) (succs ++ todo) := by
  intro i' hi'
  rcases List.mem_cons.1 hi' with rfl | hi'
  · refine ⟨succs.length, ?_⟩
    rw [List.take_left]
    exact ⟨hlt, hbest⟩
  obtain ⟨k, hk, hsome⟩ := h i' hi'
  cases k with
  | zero => exact ⟨0, hk, hsome⟩
  | succ k =>
    rw [List.take_succ_cons] at hk hsome
    have hi := hk i (.head _)
    refine ⟨succs.length + k, ?_, fun hsome' => ?_⟩
    · rw [List.take_length_add_append]
      intro j hj
      rcases List.mem_append.1 hj with hj | hj
      · exact Nat.lt_trans (hlt j hj) hi
      · exact hk j (.tail _ hj)
    · rw [List.take_length_add_append]
      obtain ⟨j, hj, hjsome⟩ := hsome hsome'
      rcases List.mem_cons.1 hj with rfl | hj
      · obtain ⟨j', hj', hjsome'⟩ := hbest hjsome
        exact ⟨j', List.mem_append_left _ hj', hjsome'⟩
      · exact ⟨j, List.mem_append_right _ hj, hjsome⟩

/-- A state that comes up again has failed. -/
theorem Covered.best_eq_none {seen todo : List Nat} {i : Nat} (h : a.Covered c seen (i :: todo))
    (hi : i ∈ seen) : a.best c i = none := by
  obtain ⟨k, hk, hsome⟩ := h i hi
  cases k with
  | zero =>
    refine Option.eq_none_iff_forall_ne_some.2 fun d hd => ?_
    obtain ⟨j, hj, -⟩ := hsome (by rw [hd]; rfl)
    cases hj
  | succ k =>
    -- The state would have to take fewer states than it takes.
    have := hk i (.head _)
    omega

/-! ## The frontier -/

/-- What comes out when the states of a frontier read on, one after another. -/
inductive Tried (a : Automaton) (c : Cursor) : List State → Option Cursor → Prop
  | nil : Tried a c [] none
  | accept : Tried a c [.accept] (some c)
  | read {set next ch rest r fs r'} (hc : c.rest = ch :: rest) (hset : set.holds ch = true)
      (h : a.Settles next (c.pass ch rest) r) (h' : Tried a c fs r') :
      Tried a c (.char set next :: fs) (r.or r')
  | stuck {set next fs r} (hset : c.rest.head?.any set.holds = false) (h : Tried a c fs r) :
      Tried a c (.char set next :: fs) r

theorem Halts.tried_char {i next : Nat} {set : CharSet} {fs : List State} {r : Option Cursor}
    (h : a.Halts c i) (hs : a.states[i]? = some (.char set next)) (ht : a.Tried c fs r) :
    a.Tried c (.char set next :: fs) ((a.best c i).or r) := by
  obtain ⟨n, r', h, -, hr⟩ := h.yields
  rw [hr]
  cases h with
  | read hs' hc hset h =>
    rw [hs] at hs'
    cases hs'
    exact .read hc hset ⟨_, h⟩ ht
  | stuck hs' hset =>
    rw [hs] at hs'
    cases hs'
    rw [Option.none_or]
    exact .stuck hset ht
  | _ => simp_all

/-- The first outcome of the states in `todo`, in a list that begins with a state that defers. -/
theorem Defers.findSome?_eq {i : Nat} {succs todo : List Nat} (h : a.Defers c i succs) :
    (i :: todo).findSome? (a.best c) = (succs ++ todo).findSome? (a.best c) := by
  rw [List.findSome?_cons, List.findSome?_append, h.best_eq]
  cases succs.findSome? (a.best c) <;> rfl

theorem Defers.covered {seen todo succs : List Nat} {i : Nat} (hd : a.Defers c i succs)
    (h : a.Covered c seen (i :: todo)) : a.Covered c (i :: seen) (succs ++ todo) := by
  refine h.replace hd.depth_lt fun hsome => ?_
  rw [hd.best_eq] at hsome
  exact List.findSome?_isSome_iff.1 hsome

/-- How matters stand before the states in `todo` are entered: those in `seen` were entered already, and
what has come out up to now is `acc`. Once something has come out, states that fail no longer matter. -/
structure Pending (a : Automaton) (c : Cursor) (acc : Option Cursor) (seen todo : List Nat) :
    Prop where
  halts : ∀ i ∈ todo, a.Halts c i
  seen_lt : ∀ i ∈ seen, i < a.states.size
  nodup : seen.Nodup
  covered : acc.isSome ∨ a.Covered c seen todo

namespace Pending

variable {acc : Option Cursor} {seen todo : List Nat} {i : Nat}

theorem start {starts : List Nat} (h : ∀ i ∈ starts, a.Halts c i) :
    a.Pending c none [] starts :=
  ⟨h, List.forall_mem_nil _, List.nodup_nil, .inr (by simp [Covered])⟩

theorem length_le (h : a.Pending c acc seen todo) : seen.length ≤ a.states.size :=
  length_le_of_nodup h.nodup h.seen_lt

/-- A state that was seen is passed over. -/
theorem drop (h : a.Pending c acc seen (i :: todo)) (hi : i ∈ seen) : a.Pending c acc seen todo := by
  refine ⟨fun j hj => h.halts j (.tail _ hj), h.seen_lt, h.nodup, h.covered.imp_right fun hcov => ?_⟩
  have hnone := hcov.best_eq_none hi
  have hdropped : a.Covered c (i :: seen) ([] ++ todo) := hcov.replace nofun (by rw [hnone]; nofun)
  exact fun j hj => hdropped j (.tail _ hj)

/-- What a state that was seen comes to does not matter. -/
theorem or_drop (h : a.Pending c acc seen (i :: todo)) (hi : i ∈ seen) :
    acc.or ((i :: todo).findSome? (a.best c)) = acc.or (todo.findSome? (a.best c)) := by
  rcases h.covered with hacc | hcov
  · obtain ⟨d, rfl⟩ := Option.isSome_iff_exists.1 hacc
    rfl
  · rw [List.findSome?_cons, hcov.best_eq_none hi]

/-- A state entered for the first time takes its place among those that were seen. -/
theorem enter {acc' : Option Cursor} {todo' : List Nat} (h : a.Pending c acc seen (i :: todo))
    (hi : i ∉ seen) (hhalts : ∀ j ∈ todo', a.Halts c j)
    (hcov : acc'.isSome ∨ a.Covered c (i :: seen) todo') : a.Pending c acc' (i :: seen) todo' := by
  have hlt := (h.halts i (.head _)).lt_size
  exact ⟨hhalts, by simpa using ⟨hlt, h.seen_lt⟩, List.nodup_cons.2 ⟨hi, h.nodup⟩, hcov⟩

theorem defer {succs : List Nat} (h : a.Pending c acc seen (i :: todo)) (hi : i ∉ seen)
    (hd : a.Defers c i succs) : a.Pending c acc (i :: seen) (succs ++ todo) := by
  refine h.enter hi (fun j hj => ?_) (h.covered.imp_right hd.covered)
  exact (List.mem_append.1 hj).elim (hd.halts j) fun hj => h.halts j (.tail _ hj)

/-- A state that reads a character settles at once: either it adds to what has come out, or it fails. -/
theorem settle (h : a.Pending c acc seen (i :: todo)) (hi : i ∉ seen) :
    a.Pending c (acc.or (a.best c i)) (i :: seen) todo := by
  refine h.enter hi (fun j hj => h.halts j (.tail _ hj)) ?_
  cases hbest : a.best c i with
  | some d => exact .inl (by cases acc <;> rfl)
  | none =>
    rw [Option.or_none]
    refine h.covered.imp_right fun hcov => ?_
    exact hcov.replace (List.forall_mem_nil _) (by rw [hbest]; nofun)

end Pending

/-- Entering the states in `todo`, but none that was seen, does not change what comes out in the end.
The induction is on the fuel; a state that is entered for the first time brings two more states at
most and is not entered again. -/
theorem tried_follow {fuel : Nat} {seen todo : List Nat} {acc : Option Cursor}
    (h : a.Pending c acc seen todo)
    (hfuel : todo.length + 2 * (a.states.size - seen.length) ≤ fuel) :
    ∃ r, a.Tried c (a.follow c fuel seen todo) r ∧
      acc.or r = acc.or (todo.findSome? (a.best c)) := by
  induction fuel generalizing seen todo acc with
  | zero =>
    have hnil : todo = [] := List.eq_nil_of_length_eq_zero (by omega)
    subst hnil
    exact ⟨none, .nil, rfl⟩
  | succ fuel ih =>
    cases todo with
    | nil => exact ⟨none, .nil, rfl⟩
    | cons i todo =>
      have hi : a.Halts c i := h.halts i (.head _)
      rw [List.length_cons] at hfuel
      rw [follow]
      by_cases hmem : i ∈ seen
      · rw [if_pos (List.contains_iff_mem.2 hmem)]
        obtain ⟨r, hr, heq⟩ := ih (h.drop hmem) (by omega)
        exact ⟨r, hr, heq.trans (h.or_drop hmem).symm⟩
      · rw [if_neg (by simpa using hmem)]
        have hroom := (h.settle hmem).length_le
        rw [List.length_cons] at hroom
        -- What is left to show where the state defers to others.
        have deferred : ∀ succs : List Nat, succs.length ≤ 2 → a.Defers c i succs →
            ∃ r, a.Tried c (a.follow c fuel (i :: seen) (succs ++ todo)) r ∧
              acc.or r = acc.or ((i :: todo).findSome? (a.best c)) := by
          intro succs hlen hd
          rw [hd.findSome?_eq]
          refine ih (h.defer hmem hd) ?_
          rw [List.length_append, List.length_cons]
          omega
        obtain ⟨s, hs⟩ : ∃ s, a.states[i]? = some s := ⟨_, Array.getElem?_eq_getElem hi.lt_size⟩
        rw [hs]
        cases s with
        | accept =>
          refine ⟨some c, .accept, ?_⟩
          rw [List.findSome?_cons, hi.best_accept hs]
        | go next => exact deferred [next] (by simp) (hi.defers_go hs)
        | fork first second => exact deferred [first, second] (by simp) (hi.defers_fork hs)
        | wordBoundary next =>
          have := deferred _ ?_ (hi.defers_boundary hs)
          · dsimp only
            split
            · rename_i hc
              rwa [if_pos hc] at this
            · rename_i hc
              rwa [if_neg hc] at this
          · split <;> simp
        | char set next =>
          obtain ⟨r, hr, heq⟩ := ih (h.settle hmem) (by rw [List.length_cons]; omega)
          refine ⟨_, hi.tried_char hs hr, ?_⟩
          rw [← Option.or_assoc, heq, Option.or_assoc, List.findSome?_cons]
          cases a.best c i <;> rfl

theorem tried_frontier {starts : List Nat} (h : ∀ i ∈ starts, a.Halts c i) :
    a.Tried c (a.frontier c starts) (starts.findSome? (a.best c)) := by
  obtain ⟨r, hr, heq⟩ := tried_follow (.start h) (Nat.le_refl _)
  rw [Option.none_or, Option.none_or] at heq
  rwa [← heq]

/-! ## All of the text -/

/-- What has been accepted at the cursor. -/
def accepted (c : Cursor) (fs : List State) : Option Cursor :=
  if fs.any State.isAccept then some c else none

theorem Tried.eq_accepted {fs : List State} {r : Option Cursor} (h : a.Tried c fs r)
    (hc : c.rest = []) : r = accepted c fs := by
  induction h with
  | nil => rfl
  | accept => rfl
  | read hc' => rw [hc] at hc'; cases hc'
  | stuck _ _ ih => exact ih

/-- The states after the next character come to all that the frontier comes to, except for what is
accepted before it. -/
theorem Tried.after {fs : List State} {r : Option Cursor} (h : a.Tried c fs r) {ch : Char}
    {rest : List Char} (hc : c.rest = ch :: rest) :
    (∀ i ∈ fs.filterMap (State.after? ch), a.Halts (c.pass ch rest) i) ∧
      r = ((fs.filterMap (State.after? ch)).findSome? (a.best (c.pass ch rest))).or
        (accepted c fs) := by
  induction h with
  | nil => exact ⟨nofun, rfl⟩
  | accept => exact ⟨nofun, rfl⟩
  | @read set next ch' rest' r fs r' hc' hset h _ ih =>
    rw [hc] at hc'
    cases hc'
    obtain ⟨hhalts, heq⟩ := ih
    have hafter : (State.char set next).after? ch = some next := if_pos hset
    rw [List.filterMap_cons_some hafter]
    refine ⟨?_, ?_⟩
    · exact List.forall_mem_cons.2 ⟨⟨r, h⟩, hhalts⟩
    · rw [heq, List.findSome?_cons, best_eq h]
      cases r <;> rfl
  | @stuck set next fs r hset _ ih =>
    rw [hc, List.head?_cons, Option.any_some] at hset
    have hafter : (State.char set next).after? ch = none := if_neg (by rw [hset]; nofun)
    rw [List.filterMap_cons_none hafter]
    exact ih

/-- Going through the text with all states at once finds what backtracking finds first. -/
theorem run_eq {starts : List Nat} (h : ∀ i ∈ starts, a.Halts c i) (found : Option Cursor) :
    a.run found starts c c.rest = (starts.findSome? (a.best c)).or found := by
  obtain ⟨offset, before, rest⟩ := c
  induction rest generalizing starts found offset before with
  | nil =>
    rw [(tried_frontier h).eq_accepted rfl, run, accepted]
    split <;> rfl
  | cons ch rest ih =>
    have hc : (⟨offset, before, ch :: rest⟩ : Cursor).rest = ch :: rest := rfl
    obtain ⟨hhalts, heq⟩ := (tried_frontier h).after hc
    rw [heq, run]
    split
    · rename_i hnil
      rw [hnil, accepted]
      split <;> rfl
    · rw [Cursor.pass, ih _ _ _ hhalts, Option.or_assoc, accepted]
      split <;> rfl

/-- The automaton of a steady pattern finds the match that the pattern prefers. -/
theorem matchAt?_ofPattern {p : Pattern} (hp : p.isSteady = true) (c : Cursor) :
    (ofPattern p).matchAt? c = (p.ends c).head? := by
  have h := settles_ofPattern hp c
  rw [matchAt?, run_eq (by simpa using ⟨_, h⟩), List.findSome?_singleton, best_eq h, Option.or_none]

end CStruct.Automaton
