import CStruct.Pattern.Engine
import CStruct.Proofs.Pattern.Frontier
import CStruct.Proofs.Pattern.Runs

/-!
# Alternatives side by side

The automaton of a choice holds those of its alternatives, laid out one after another, and goes
through the text with all of them at once. It finds what the first alternative finds that finds
anything (`matchAt?_options`), so the name under which the engine reports a match is that of the
alternative that the match is one of (`Regex.matchAt?_ofPattern`). This goes for every pattern: as no
state is entered twice at a cursor, it has to be seen that an alternative does not enter a state of
another one. `Followed` says what is entered without a bound on the steps.
-/

namespace CStruct

namespace Automaton

/-! ## States under other numbers -/

namespace State

/-- The same state where all states have other numbers. -/
def renumber (ρ : Nat → Nat) : State → State
  | accept => accept
  | go next => go (ρ next)
  | char set next => char set (ρ next)
  | wordBoundary next => wordBoundary (ρ next)
  | fork first second => fork (ρ first) (ρ second)

/-- The states that are entered at once from a state, best first. -/
def successors (c : Cursor) : State → List Nat
  | accept | char _ _ => []
  | go next => [next]
  | wordBoundary next => if c.atWordBoundary then [next] else []
  | fork first second => [first, second]

/-- What a state adds to the frontier. -/
def shown : State → List State
  | accept => [accept]
  | char set next => [char set next]
  | go _ | wordBoundary _ | fork _ _ => []

variable (ρ : Nat → Nat) (s : State)

theorem successors_renumber (c : Cursor) :
    (s.renumber ρ).successors c = (s.successors c).map ρ := by
  cases s with
  | wordBoundary next =>
    simp only [renumber, successors]
    split <;> rfl
  | _ => rfl

theorem shown_renumber : (s.renumber ρ).shown = s.shown.map (renumber ρ) := by
  cases s <;> rfl

theorem isAccept_renumber : (s.renumber ρ).isAccept = s.isAccept := by
  cases s <;> rfl

theorem after?_renumber (ch : Char) : (s.renumber ρ).after? ch = (s.after? ch).map ρ := by
  cases s with
  | char set next =>
    simp only [renumber, after?]
    split <;> rfl
  | _ => rfl

theorem length_successors_le (c : Cursor) : (s.successors c).length ≤ 2 := by
  cases s with
  | wordBoundary next =>
    simp only [successors]
    split <;> simp
  | _ => simp [successors]

theorem any_isAccept_shown {s : State} (h : s ≠ accept) : s.shown.any isAccept = false := by
  cases s <;> first | rfl | exact absurd rfl h

end State

/-! ## Fragments in other places -/

namespace Fragment

/-- Elsewhere a fragment has the same states, with the numbers of states moved along. -/
structure Movable (f : Fragment) : Prop where
  pos : 0 < f.size
  states_eq : ∀ {ρ : Nat → Nat} {start next start' next' : Nat},
    (∀ i < f.size, ρ (start + i) = start' + i) → ρ next = next' →
      f.states start' next' = (f.states start next).map (State.renumber ρ)

variable {f g : Fragment}

theorem movable_single {state : Nat → State}
    (h : ∀ (ρ : Nat → Nat) next, (state next).renumber ρ = state (ρ next)) :
    (single state).Movable where
  pos := Nat.one_pos
  states_eq {ρ _ next _ next'} _ hnext := by
    show [state next'] = [(state next).renumber ρ]
    rw [h, hnext]

theorem movable_empty : empty.Movable := movable_single fun _ _ => rfl

theorem Movable.andThen (hf : f.Movable) (hg : g.Movable) : (f.andThen g).Movable where
  pos := Nat.add_pos_left hf.pos _
  states_eq {ρ start next start' next'} hρ hnext := by
    have hsize : (f.andThen g).size = f.size + g.size := rfl
    have hmiddle : ρ (start + f.size) = start' + f.size := by
      apply hρ
      have := hg.pos
      omega
    show f.states start' (start' + f.size) ++ g.states (start' + f.size) next' = List.map _ (_ ++ _)
    rw [List.map_append, hf.states_eq (fun i hi => hρ i (by omega)) hmiddle,
      hg.states_eq (fun i hi => ?_) hnext]
    rw [Nat.add_assoc, hρ (f.size + i) (by omega), Nat.add_assoc]

theorem Movable.orElse (hf : f.Movable) (hg : g.Movable) : (f.orElse g).Movable where
  pos := by
    have hsize : (f.orElse g).size = 1 + f.size + g.size := rfl
    omega
  states_eq {ρ start next start' next'} hρ hnext := by
    have hsize : (f.orElse g).size = 1 + f.size + g.size := rfl
    have hfpos := hf.pos
    have hgpos := hg.pos
    have hfirst : ∀ i < f.size, ρ (start + 1 + i) = start' + 1 + i := by
      intro i hi
      rw [Nat.add_assoc, hρ (1 + i) (by omega), Nat.add_assoc]
    have hsecond : ∀ i < g.size, ρ (start + 1 + f.size + i) = start' + 1 + f.size + i := by
      intro i hi
      have hat := hρ (1 + f.size + i) (by omega)
      rwa [← Nat.add_assoc, ← Nat.add_assoc, ← Nat.add_assoc, ← Nat.add_assoc] at hat
    have hone : ρ (start + 1) = start' + 1 := hfirst 0 hfpos
    have hother : ρ (start + 1 + f.size) = start' + 1 + f.size := hsecond 0 hgpos
    show State.fork (start' + 1) (start' + 1 + f.size) :: f.states (start' + 1) next' ++
      g.states (start' + 1 + f.size) next' = List.map _ (_ :: _ ++ _)
    rw [List.map_append, List.map_cons, hf.states_eq hfirst hnext, hg.states_eq hsecond hnext,
      State.renumber, hone, hother]

theorem Movable.optional (greedy : Bool) (hf : f.Movable) : (f.optional greedy).Movable := by
  cases greedy
  · exact movable_empty.orElse hf
  · exact hf.orElse movable_empty

theorem Movable.loop (greedy : Bool) (hf : f.Movable) : (f.loop greedy).Movable where
  pos := Nat.succ_pos _
  states_eq {ρ start next start' next'} hρ hnext := by
    have hsize : (f.loop greedy).size = f.size + 1 := rfl
    have hstart : ρ start = start' := hρ 0 (by omega)
    have hfirst : ∀ i < f.size, ρ (start + 1 + i) = start' + 1 + i := by
      intro i hi
      rw [Nat.add_assoc, hρ (1 + i) (by omega), Nat.add_assoc]
    show (if greedy then State.fork (start' + 1) next' else .fork next' (start' + 1)) ::
      f.states (start' + 1) start' = List.map _ (_ :: _)
    rw [List.map_cons, hf.states_eq hfirst hstart]
    have hone : ρ (start + 1) = start' + 1 := hfirst 0 hf.pos
    cases greedy <;> simp [State.renumber, hone, hnext]

theorem Movable.rounds (greedy : Bool) (hf : f.Movable) : (f.rounds greedy).Movable where
  pos := Nat.succ_pos _
  states_eq {ρ start next start' next'} hρ hnext := by
    have hsize : (f.rounds greedy).size = f.size + 1 := rfl
    have hstart : ρ start = start' := hρ 0 (by omega)
    have hlast : ρ (start + f.size) = start' + f.size := hρ f.size (by omega)
    show f.states start' (start' + f.size) ++
      [if greedy then State.fork start' next' else .fork next' start'] = List.map _ (_ ++ [_])
    rw [List.map_append, hf.states_eq (fun i hi => hρ i (by omega)) hlast]
    cases greedy <;> simp [State.renumber, hstart, hnext]

theorem Movable.exactlyThen (hf : f.Movable) (hg : g.Movable) (n : Nat) :
    (f.exactlyThen g n).Movable := by
  induction n with
  | zero => exact hg
  | succ n ih => exact hf.andThen ih

theorem Movable.upTo (greedy : Bool) (hf : f.Movable) (n : Nat) : (f.upTo greedy n).Movable := by
  induction n with
  | zero => exact movable_empty
  | succ n ih => exact (hf.andThen ih).optional greedy

theorem Movable.times (least : Nat) (most : Option Nat) (greedy canBeEmpty : Bool)
    (hf : f.Movable) : (f.times least most greedy canBeEmpty).Movable := by
  unfold Fragment.times
  split
  · exact hf.upTo greedy _
  · split
    · exact hf.exactlyThen hf _
    · exact hf.exactlyThen (hf.upTo greedy _) _
  · split
    · exact (hf.rounds greedy).optional greedy
    · exact hf.loop greedy
  · exact hf.exactlyThen (hf.rounds greedy) _

end Fragment

theorem movable_fragment (p : Pattern) : p.fragment.Movable := by
  induction p with
  | empty | char | wordBoundary => exact Fragment.movable_single fun _ _ => rfl
  | seq p q hp hq => exact hp.andThen hq
  | alt p q hp hq => exact hp.orElse hq
  | rep least most greedy p hp => exact hp.times least most greedy p.canBeEmpty
  | group name? p hp => exact hp

/-! ## What is entered -/

variable {a a' b : Automaton} {c : Cursor}

/-- The frontier that comes of entering the states in `todo`, but none that was seen. -/
inductive Followed (a : Automaton) (c : Cursor) : List Nat → List Nat → List State → Prop
  | nil {seen} : Followed a c seen [] []
  | skip {seen i todo fs} (hi : i ∈ seen ∨ a.states[i]? = none) (h : Followed a c seen todo fs) :
      Followed a c seen (i :: todo) fs
  | accept {seen i todo} (hi : i ∉ seen) (hs : a.states[i]? = some .accept) :
      Followed a c seen (i :: todo) [.accept]
  | enter {seen i todo s fs} (hi : i ∉ seen) (hs : a.states[i]? = some s) (hne : s ≠ .accept)
      (h : Followed a c (i :: seen) (s.successors c ++ todo) fs) :
      Followed a c seen (i :: todo) (s.shown ++ fs)

/-- The next state and whether it has been seen decide which step is taken. -/
theorem Followed.unique {seen todo : List Nat} {fs gs : List State}
    (h : a.Followed c seen todo fs) (h' : a.Followed c seen todo gs) : fs = gs := by
  induction h generalizing gs with
  | nil =>
    cases h'
    rfl
  | skip hi _ ih =>
    cases h' with
    | skip _ h' => exact ih h'
    | accept hi' hs' => simp_all
    | enter hi' hs' => simp_all
  | accept hi hs =>
    cases h' with
    | skip hi' => simp_all
    | accept => rfl
    | enter _ hs' hne => simp_all
  | enter hi hs hne _ ih =>
    cases h' with
    | skip hi' => simp_all
    | accept _ hs' => simp_all
    | enter _ hs' _ h' =>
      rw [hs] at hs'
      cases hs'
      rw [ih h']

/-- A state that is neither seen nor accepting gives way to its successors. -/
theorem follow_enter {fuel : Nat} {seen todo : List Nat} {i : Nat} {s : State} (hi : i ∉ seen)
    (hs : a.states[i]? = some s) (hne : s ≠ .accept) :
    a.follow c (fuel + 1) seen (i :: todo) =
      s.shown ++ a.follow c fuel (i :: seen) (s.successors c ++ todo) := by
  rw [follow, if_neg (by simpa using hi), hs]
  cases s with
  | accept => exact absurd rfl hne
  | wordBoundary next =>
    simp only [State.successors, State.shown]
    split <;> rfl
  | _ => rfl

/-- There is fuel enough if every state can still be entered once. -/
theorem followed_follow {fuel : Nat} {seen todo : List Nat} (hnodup : seen.Nodup)
    (hseen : ∀ i ∈ seen, i < a.states.size)
    (hfuel : todo.length + 2 * (a.states.size - seen.length) ≤ fuel) :
    a.Followed c seen todo (a.follow c fuel seen todo) := by
  induction fuel generalizing seen todo with
  | zero =>
    have hnil : todo = [] := List.eq_nil_of_length_eq_zero (by omega)
    subst hnil
    exact .nil
  | succ fuel ih =>
    cases todo with
    | nil => exact .nil
    | cons i todo =>
      rw [List.length_cons] at hfuel
      by_cases hmem : i ∈ seen
      · rw [follow, if_pos (List.contains_iff_mem.2 hmem)]
        exact .skip (.inl hmem) (ih hnodup hseen (by omega))
      · cases hs : a.states[i]? with
        | none =>
          rw [follow, if_neg (by simpa using hmem), hs]
          exact .skip (.inr hs) (ih hnodup hseen (by omega))
        | some s =>
          by_cases haccept : s = .accept
          · subst haccept
            rw [follow, if_neg (by simpa using hmem), hs]
            exact .accept hmem hs
          · have hlt : i < a.states.size := (Array.getElem?_eq_some_iff.1 hs).1
            have hseen' : ∀ j ∈ i :: seen, j < a.states.size := by
              simpa using ⟨hlt, hseen⟩
            have hnodup' : (i :: seen).Nodup := List.nodup_cons.2 ⟨hmem, hnodup⟩
            -- entering `i` puts at most two states on the list, and leaves one less to be entered
            have hroom : (i :: seen).length ≤ a.states.size := length_le_of_nodup hnodup' hseen'
            rw [follow_enter hmem hs haccept]
            apply Followed.enter hmem hs haccept
            apply ih hnodup' hseen'
            have hlength := s.length_successors_le c
            rw [List.length_append]
            rw [List.length_cons] at hroom ⊢
            omega

theorem followed_frontier (starts : List Nat) :
    a.Followed c [] starts (a.frontier c starts) :=
  followed_follow List.nodup_nil (List.forall_mem_nil _) (Nat.le_refl _)

/-! ## Automata within another one -/

/-- The states of `a` are states of `b` under the numbers that `ρ` gives to them. -/
structure Embeds (ρ : Nat → Nat) (a b : Automaton) : Prop where
  injective : Function.Injective ρ
  states_eq : ∀ i, b.states[ρ i]? = a.states[i]?.map (State.renumber ρ)

/-- What `b` shows of `a` and of `a'` behind it, in which it does not look once `a` accepts. -/
def joined (ρ σ : Nat → Nat) (fs gs : List State) : List State :=
  fs.map (State.renumber ρ) ++ if fs.any State.isAccept then [] else gs.map (State.renumber σ)

theorem joined_append (ρ σ : Nat → Nat) {fs : List State} (h : fs.any State.isAccept = false)
    (fs' gs : List State) :
    joined ρ σ (fs ++ fs') gs = fs.map (State.renumber ρ) ++ joined ρ σ fs' gs := by
  rw [joined, joined, List.map_append, List.any_append, h, Bool.false_or, List.append_assoc]

section Embedded

variable {ρ σ : Nat → Nat}

theorem renumber_ne_accept {s : State} (h : s ≠ .accept) : s.renumber ρ ≠ .accept := by
  cases s <;> first | exact absurd rfl h | nofun

/-- Entering states of `a` within `b`. -/
theorem Followed.embed (ha : Embeds ρ a b) {seen todo : List Nat} {fs : List State}
    (h : a.Followed c seen todo fs) {marked : List Nat}
    (hmarked : ∀ i, ρ i ∈ marked ↔ i ∈ seen) :
    b.Followed c marked (todo.map ρ) (fs.map (State.renumber ρ)) := by
  induction h generalizing marked with
  | nil => exact .nil
  | skip hi _ ih =>
    refine .skip ?_ (ih hmarked)
    rcases hi with hi | hi
    · exact .inl ((hmarked _).2 hi)
    · exact .inr (by rw [ha.states_eq, hi, Option.map_none])
  | accept hi hs =>
    exact .accept (mt (hmarked _).1 hi) (by rw [ha.states_eq, hs, Option.map_some, State.renumber])
  | @enter seen i todo s fs hi hs hne _ ih =>
    have hstate : b.states[ρ i]? = some (s.renumber ρ) := by rw [ha.states_eq, hs, Option.map_some]
    rw [List.map_append, ← State.shown_renumber]
    apply Followed.enter (mt (hmarked _).1 hi) hstate (renumber_ne_accept hne)
    rw [State.successors_renumber, ← List.map_append]
    apply ih
    intro j
    rw [List.mem_cons, List.mem_cons, hmarked, ha.injective.eq_iff]

/-- Entering states of `a` within `b` and, behind them, states of `a'`. The two have no state in
common, apart from those that accept. -/
theorem Followed.joined (ha : Embeds ρ a b) (ha' : Embeds σ a' b)
    (hapart : ∀ i j, ρ i = σ j → ∀ s ∈ a.states[i]?, s = .accept)
    {seen todo seen' todo' : List Nat} {fs gs : List State} (h : a.Followed c seen todo fs)
    (h' : a'.Followed c seen' todo' gs) {marked : List Nat}
    (hmarked : ∀ i, ρ i ∈ marked ↔ i ∈ seen) (hmarked' : ∀ j, σ j ∈ marked ↔ j ∈ seen') :
    b.Followed c marked (todo.map ρ ++ todo'.map σ) (joined ρ σ fs gs) := by
  induction h generalizing marked with
  | nil => exact h'.embed ha' hmarked'
  | skip hi _ ih =>
    refine .skip ?_ (ih hmarked hmarked')
    rcases hi with hi | hi
    · exact .inl ((hmarked _).2 hi)
    · exact .inr (by rw [ha.states_eq, hi, Option.map_none])
  | accept hi hs =>
    exact .accept (mt (hmarked _).1 hi) (by rw [ha.states_eq, hs, Option.map_some, State.renumber])
  | @enter seen i todo s fs hi hs hne _ ih =>
    have hstate : b.states[ρ i]? = some (s.renumber ρ) := by rw [ha.states_eq, hs, Option.map_some]
    rw [joined_append ρ σ (State.any_isAccept_shown hne), ← State.shown_renumber]
    apply Followed.enter (mt (hmarked _).1 hi) hstate (renumber_ne_accept hne)
    have hassoc : (s.renumber ρ).successors c ++ (todo.map ρ ++ todo'.map σ) =
        (s.successors c ++ todo).map ρ ++ todo'.map σ := by
      rw [State.successors_renumber, List.map_append, List.append_assoc]
    show b.Followed c _ ((s.renumber ρ).successors c ++ (todo.map ρ ++ todo'.map σ)) _
    rw [hassoc]
    refine ih (fun j => ?_) fun j => ?_
    · rw [List.mem_cons, List.mem_cons, hmarked, ha.injective.eq_iff]
    · rw [List.mem_cons, hmarked', or_iff_right]
      intro heq
      exact hne (hapart i j heq.symm s hs)

theorem frontier_joined (ha : Embeds ρ a b) (ha' : Embeds σ a' b)
    (hapart : ∀ i j, ρ i = σ j → ∀ s ∈ a.states[i]?, s = .accept) (starts starts' : List Nat) :
    b.frontier c (starts.map ρ ++ starts'.map σ) =
      joined ρ σ (a.frontier c starts) (a'.frontier c starts') := by
  apply (followed_frontier _).unique
  exact (followed_frontier starts).joined ha ha' hapart (followed_frontier starts')
    (by simp) (by simp)

/-- A fork leads to both automata; neither of them comes back to it. -/
theorem frontier_fork (ha : Embeds ρ a b) (ha' : Embeds σ a' b)
    (hapart : ∀ i j, ρ i = σ j → ∀ s ∈ a.states[i]?, s = .accept) {i : Nat}
    (hfork : b.states[i]? = some (.fork (ρ 0) (σ 0))) (hleft : ∀ j, ρ j ≠ i)
    (hright : ∀ j, σ j ≠ i) :
    b.frontier c [i] = joined ρ σ (a.frontier c [0]) (a'.frontier c [0]) := by
  apply (followed_frontier [i]).unique
  apply Followed.enter List.not_mem_nil hfork nofun
  exact (followed_frontier [0]).joined ha ha' hapart (followed_frontier [0])
    (by simpa using hleft) (by simpa using hright)

end Embedded

/-! ## Going through the text -/

@[simp] theorem frontier_nil (a : Automaton) (c : Cursor) : a.frontier c [] = [] :=
  (followed_frontier []).unique .nil

theorem run_nil (a : Automaton) (best : Option Cursor) (c : Cursor) (ahead : List Char) :
    a.run best [] c ahead = best := by
  cases ahead <;> simp [run]

theorem run_cons (a : Automaton) (best : Option Cursor) (starts : List Nat) (c : Cursor) (ch : Char)
    (ahead : List Char) :
    a.run best starts c (ch :: ahead) =
      a.run (if (a.frontier c starts).any State.isAccept then some c else best)
        ((a.frontier c starts).filterMap (State.after? ch)) (c.pass ch ahead) ahead := by
  rw [run]
  split
  · rename_i hnil
    rw [hnil, run_nil]
  · rfl

/-- The best match up to now counts if there is no better one. -/
theorem run_or (a : Automaton) (best : Option Cursor) (starts : List Nat) (c : Cursor)
    (ahead : List Char) : a.run best starts c ahead = (a.run none starts c ahead).or best := by
  induction ahead generalizing best starts c with
  | nil =>
    rw [run, run]
    split <;> rfl
  | cons ch ahead ih =>
    rw [run_cons, run_cons]
    split
    · rw [ih, Option.or_assoc, Option.some_or]
    · exact ih ..

theorem any_isAccept_joined (ρ σ : Nat → Nat) (fs gs : List State) :
    (joined ρ σ fs gs).any State.isAccept = (fs.any State.isAccept || gs.any State.isAccept) := by
  have hmap (ρ : Nat → Nat) (fs : List State) :
      (fs.map (State.renumber ρ)).any State.isAccept = fs.any State.isAccept := by
    rw [List.any_map]
    congr 1
    funext s
    exact s.isAccept_renumber ρ
  rw [joined, List.any_append, hmap]
  split
  · rename_i haccept
    rw [haccept, Bool.true_or, Bool.true_or]
  · rw [hmap]

theorem filterMap_after?_renumber (ρ : Nat → Nat) (ch : Char) (fs : List State) :
    (fs.map (State.renumber ρ)).filterMap (State.after? ch) =
      (fs.filterMap (State.after? ch)).map ρ := by
  rw [List.filterMap_map, List.map_filterMap]
  congr 1
  funext s
  exact s.after?_renumber ρ ch

/-- Where `b` shows what `a` and `a'` show, it finds what `a` finds or, failing that, `a'`. -/
theorem run_joined {ρ σ : Nat → Nat} (ha : Embeds ρ a b) (ha' : Embeds σ a' b)
    (hapart : ∀ i j, ρ i = σ j → ∀ s ∈ a.states[i]?, s = .accept) {ahead : List Char}
    {best : Option Cursor} {starts first second : List Nat}
    (h : b.frontier c starts = joined ρ σ (a.frontier c first) (a'.frontier c second)) :
    b.run best starts c ahead =
      (a.run none first c ahead).or ((a'.run none second c ahead).or best) := by
  induction ahead generalizing c best starts first second with
  | nil =>
    rw [run, run, run, h, any_isAccept_joined]
    cases (a.frontier c first).any State.isAccept <;>
      cases (a'.frontier c second).any State.isAccept <;> rfl
  | cons ch ahead ih =>
    rw [run_cons, run_cons, run_cons, h, any_isAccept_joined, joined, List.filterMap_append,
      filterMap_after?_renumber]
    cases haccept : (a.frontier c first).any State.isAccept with
    | true =>
      -- what `a'` could still find would be worse
      have hfrontier : b.frontier (c.pass ch ahead)
          (((a.frontier c first).filterMap (State.after? ch)).map ρ ++ []) = _ :=
        frontier_joined ha ha' hapart _ []
      rw [Bool.true_or, if_pos rfl, if_pos rfl, if_pos rfl, List.filterMap_nil, ih hfrontier,
        run_nil, run_or a (some c), Option.or_assoc]
      rfl
    | false =>
      rw [Bool.false_or, if_neg Bool.false_ne_true, if_neg Bool.false_ne_true,
        filterMap_after?_renumber, ih (frontier_joined ha ha' hapart _ _)]
      split
      · rw [run_or a' (some c), Option.or_assoc, Option.some_or]
      · rfl

/-! ## Alternatives -/

/-- Where a state of a fragment comes to be if the fragment is laid out from `start` on and followed
by `next`; `next` is the last state there is. -/
def placed (size start next i : Nat) : Nat := if i < size then start + i else next + (i - size)

theorem placed_of_lt {size start next i : Nat} (h : i < size) :
    placed size start next i = start + i := if_pos h

theorem placed_size (size start next : Nat) : placed size start next size = next := by
  rw [placed, if_neg (Nat.lt_irrefl _), Nat.sub_self, Nat.add_zero]

theorem le_placed {size start next : Nat} (i : Nat) (h : start ≤ next) :
    start ≤ placed size start next i := by
  unfold placed
  split <;> omega

theorem placed_injective {size start next : Nat} (h : start + size ≤ next) :
    Function.Injective (placed size start next) := by
  intro i j heq
  unfold placed at heq
  split at heq <;> split at heq <;> omega

/-- An automaton that holds the states of a pattern, and last one that accepts, holds the automaton
of the pattern. -/
theorem embeds_ofPattern {p : Pattern} {start next : Nat} (hle : start + p.fragment.size ≤ next)
    (hsize : b.states.size = next + 1) (hlast : b.states[next]? = some .accept)
    (hhas : b.Has start (p.fragment.states start next)) :
    Embeds (placed p.fragment.size start next) (ofPattern p) b where
  injective := placed_injective hle
  states_eq i := by
    have hlength : (p.fragment.states 0 p.fragment.size).length = p.fragment.size :=
      p.fits_fragment _ _
    have hstates : (ofPattern p).states[i]? =
        (p.fragment.states 0 p.fragment.size ++ [State.accept])[i]? := List.getElem?_toArray ..
    rcases Nat.lt_trichotomy i p.fragment.size with hlt | rfl | hgt
    · have hmoved : p.fragment.states start next = (p.fragment.states 0 p.fragment.size).map
          (State.renumber (placed p.fragment.size start next)) := by
        apply (movable_fragment p).states_eq _ (placed_size ..)
        intro j hj
        rw [Nat.zero_add, placed_of_lt hj]
      have hi : i < (p.fragment.states start next).length := by rwa [p.fits_fragment]
      rw [placed_of_lt hlt, hstates, List.getElem?_append_left (by rwa [hlength]),
        ← List.getElem?_map, ← hmoved, List.getElem?_eq_getElem hi]
      exact hhas i _ (List.getElem?_eq_getElem hi)
    · rw [placed_size, hlast, states_ofPattern_size]
      rfl
    · have hout : next + (i - p.fragment.size) ≥ b.states.size := by omega
      rw [placed, if_neg (Nat.lt_asymm hgt), Array.getElem?_eq_none hout, hstates,
        List.getElem?_eq_none (by rw [List.length_append, hlength, List.length_singleton]; omega)]
      rfl

theorem size_ofPattern (p : Pattern) : (ofPattern p).states.size = p.fragment.size + 1 := by
  rw [ofPattern, List.size_toArray, List.length_append, p.fits_fragment]
  rfl

/-- Behind the states of a pattern there is only the one that accepts. -/
theorem eq_accept_of_size_le {p : Pattern} {i : Nat} (h : p.fragment.size ≤ i) {s : State}
    (hs : s ∈ (ofPattern p).states[i]?) : s = .accept := by
  have hlt := (Array.getElem?_eq_some_iff.1 hs).1
  rw [size_ofPattern] at hlt
  obtain rfl : i = p.fragment.size := by omega
  rw [states_ofPattern_size] at hs
  exact (Option.some.inj hs).symm

/-- Two patterns that are laid out one after another have no state in common but the one behind
both that accepts. -/
theorem eq_accept_of_placed_eq {p q : Pattern} {start next : Nat}
    (h : start + p.fragment.size + q.fragment.size ≤ next) (i j : Nat)
    (heq : placed p.fragment.size start next i =
      placed q.fragment.size (start + p.fragment.size) next j) :
    ∀ s ∈ (ofPattern p).states[i]?, s = .accept := by
  intro s hs
  apply eq_accept_of_size_le _ hs
  unfold placed at heq
  split at heq <;> split at heq <;> omega

/-- A choice finds what the first alternative finds or, failing that, the second. -/
theorem matchAt?_alt (p q : Pattern) (c : Cursor) :
    (ofPattern (.alt p q)).matchAt? c =
      ((ofPattern p).matchAt? c).or ((ofPattern q).matchAt? c) := by
  have hlast := states_ofPattern_size (.alt p q)
  have hsize := size_ofPattern (.alt p q)
  have hhas := has_ofPattern (.alt p q)
  have hnext : (Pattern.alt p q).fragment.size = 1 + p.fragment.size + q.fragment.size := rfl
  have hppos := (movable_fragment p).pos
  have hqpos := (movable_fragment q).pos
  generalize (Pattern.alt p q).fragment.size = next at hlast hsize hhas hnext
  have hright := hhas.tail.right
  rw [p.fits_fragment] at hright
  have hp := embeds_ofPattern (by omega) hsize hlast hhas.tail.left
  have hq := embeds_ofPattern (by omega) hsize hlast hright
  have hapart : ∀ i j, placed p.fragment.size (0 + 1) next i =
      placed q.fragment.size (0 + 1 + p.fragment.size) next j →
      ∀ s ∈ (ofPattern p).states[i]?, s = .accept := eq_accept_of_placed_eq (by omega)
  have hfork : (ofPattern (.alt p q)).states[0]? = some (.fork
      (placed p.fragment.size (0 + 1) next 0)
      (placed q.fragment.size (0 + 1 + p.fragment.size) next 0)) := by
    rw [placed_of_lt hppos, placed_of_lt hqpos]
    exact hhas.head
  have hfrontier := frontier_fork (c := c) hp hq hapart hfork
    (fun j => Nat.ne_of_gt (Nat.le_trans (by omega) (le_placed j (by omega))))
    (fun j => Nat.ne_of_gt (Nat.le_trans (by omega) (le_placed j (by omega))))
  rw [matchAt?, run_joined hp hq hapart hfrontier, Option.or_none]
  rfl

/-- A pattern finds what the first of its alternatives finds that finds anything. -/
theorem matchAt?_options (p : Pattern) (c : Cursor) :
    (ofPattern p).matchAt? c = p.options.findSome? fun q => (ofPattern q).matchAt? c := by
  induction p with
  | alt p q _ ih =>
    rw [matchAt?_alt, Pattern.options, List.findSome?_cons, ih]
    cases (ofPattern p).matchAt? c <;> rfl
  | _ => exact List.findSome?_singleton.symm

end Automaton

/-- A match is that of the first alternative that matches, under its name. -/
theorem Pattern.Regex.matchAt?_ofPattern (p : Pattern) (c : Cursor) :
    (ofPattern p).matchAt? c = p.options.findSome? fun q =>
      ((Automaton.ofPattern q).matchAt? c).map fun stop =>
        ⟨c.offset, stop.offset, q.groupName?.toList⟩ := by
  rw [matchAt?, group?, ofPattern]
  dsimp only
  rw [Automaton.matchAt?_options]
  induction p.options with
  | nil => rfl
  | cons q qs ih =>
    rw [List.findSome?_cons, List.findSome?_cons, List.map_cons, List.find?_cons]
    dsimp only
    cases (Automaton.ofPattern q).matchAt? c with
    | none => exact ih
    | some stop => rfl

end CStruct
