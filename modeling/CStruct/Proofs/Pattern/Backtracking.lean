import CStruct.Proofs.Pattern.Preference
import Mathlib.Data.List.Basic

/-!
# Automata by backtracking

`Yields` says what comes out when the branches of every fork are tried one after another. It takes
no account of the states that were entered before: that this makes no difference is the subject of
`Frontier`. The states of a steady pattern yield what the pattern prefers (`settles_ofPattern`). The
proof goes through the fragments: `Fragment.Follows` says of one what it hands on to what follows.
-/

namespace CStruct.Automaton

variable {a : Automaton}

/-! ## Backtracking -/

/-- Entered at state `i` at the cursor `c`, backtracking finds its first match to end at `r`. The
number is how many states it goes through at most before a character is read. -/
inductive Yields (a : Automaton) : Nat → Nat → Cursor → Option Cursor → Prop
  | accept {i c} (hs : a.states[i]? = some .accept) : Yields a 0 i c (some c)
  | go {n i next c r} (hs : a.states[i]? = some (.go next)) (h : Yields a n next c r) :
      Yields a (n + 1) i c r
  | read {n i set next c ch rest r} (hs : a.states[i]? = some (.char set next))
      (hc : c.rest = ch :: rest) (hset : set.holds ch = true)
      (h : Yields a n next (c.pass ch rest) r) : Yields a 0 i c r
  | stuck {i set next c} (hs : a.states[i]? = some (.char set next))
      (hset : c.rest.head?.any set.holds = false) : Yields a 0 i c none
  | boundary {n i next c r} (hs : a.states[i]? = some (.wordBoundary next))
      (hc : c.atWordBoundary = true) (h : Yields a n next c r) : Yields a (n + 1) i c r
  | noBoundary {i next c} (hs : a.states[i]? = some (.wordBoundary next))
      (hc : c.atWordBoundary = false) : Yields a 0 i c none
  | fork {n m i first second c r r'} (hs : a.states[i]? = some (.fork first second))
      (h : Yields a n first c r) (h' : Yields a m second c r') :
      Yields a (max n m + 1) i c (r.or r')

theorem Yields.unique {n m i : Nat} {c : Cursor} {r r' : Option Cursor} (h : Yields a n i c r)
    (h' : Yields a m i c r') : r = r' := by
  induction h generalizing m r' with
  | accept hs => cases h' <;> simp_all
  | go hs _ ih =>
    cases h' with
    | go hs' h => rw [hs] at hs'; cases hs'; exact ih h
    | _ => simp_all
  | read hs hc hset _ ih =>
    cases h' with
    | read hs' hc' _ h =>
      rw [hs] at hs'; cases hs'
      rw [hc] at hc'; cases hc'
      exact ih h
    | _ => simp_all
  | stuck hs hset => cases h' <;> simp_all
  | boundary hs hc _ ih =>
    cases h' with
    | boundary hs' _ h => rw [hs] at hs'; cases hs'; exact ih h
    | _ => simp_all
  | noBoundary hs hc => cases h' <;> simp_all
  | fork hs _ _ ih ih' =>
    cases h' with
    | fork hs' h h' => rw [hs] at hs'; cases hs'; rw [ih h, ih' h']
    | _ => simp_all

/-- What backtracking comes to, however long it takes. -/
def Settles (a : Automaton) (i : Nat) (c : Cursor) (r : Option Cursor) : Prop :=
  ∃ n, a.Yields n i c r

/-- Backtracking from one state at several cursors, one after another. -/
inductive Searches (a : Automaton) (i : Nat) : List Cursor → Option Cursor → Prop
  | nil : Searches a i [] none
  | cons {c cs r r'} (h : a.Settles i c r) (h' : Searches a i cs r') :
      Searches a i (c :: cs) (r.or r')

theorem settles_of_searches {i : Nat} {c : Cursor} {r : Option Cursor}
    (h : a.Searches i [c] r) : a.Settles i c r := by
  cases h with
  | cons h h' => cases h'; rwa [Option.or_none]

theorem searches_append {i : Nat} {cs ds : List Cursor} {r : Option Cursor}
    (h : a.Searches i (cs ++ ds) r) :
    ∃ r₁ r₂, a.Searches i cs r₁ ∧ a.Searches i ds r₂ ∧ r = r₁.or r₂ := by
  induction cs generalizing r with
  | nil => exact ⟨none, r, .nil, h, Option.none_or.symm⟩
  | cons c cs ih =>
    cases h with
    | cons hc h =>
      obtain ⟨r₁, r₂, h₁, h₂, rfl⟩ := ih h
      exact ⟨_, r₂, .cons hc h₁, h₂, Option.or_assoc.symm⟩

/-- If `i` leads on to the search from `j` at the cursors that `g` names, searching from `i` is
searching from `j` at all of them. -/
theorem searches_of_flatMap {i j : Nat} {g : Cursor → List Cursor} {cs : List Cursor}
    (hstep : ∀ d ∈ cs, ∀ r, a.Searches j (g d) r → a.Settles i d r) {r : Option Cursor}
    (h : a.Searches j (cs.flatMap g) r) : a.Searches i cs r := by
  induction cs generalizing r with
  | nil => cases h; exact .nil
  | cons c cs ih =>
    rw [List.flatMap_cons] at h
    obtain ⟨r₁, r₂, h₁, h₂, rfl⟩ := searches_append h
    exact .cons (hstep c (.head _) r₁ h₁) (ih (fun d hd => hstep d (.tail _ hd)) h₂)

/-! ## Fragments -/

/-- The states of the automaton from number `start` on begin with `states`. -/
def Has (a : Automaton) (start : Nat) (states : List State) : Prop :=
  ∀ i s, states[i]? = some s → a.states[start + i]? = some s

theorem Has.head {start : Nat} {s : State} {states : List State} (h : a.Has start (s :: states)) :
    a.states[start]? = some s := h 0 s rfl

theorem Has.tail {start : Nat} {s : State} {states : List State} (h : a.Has start (s :: states)) :
    a.Has (start + 1) states := by
  intro i t ht
  rw [Nat.add_assoc, Nat.add_comm 1]
  exact h (i + 1) t ht

theorem Has.left {start : Nat} {states others : List State} (h : a.Has start (states ++ others)) :
    a.Has start states := by
  intro i s hs
  have hi := (List.getElem?_eq_some_iff.1 hs).1
  exact h i s (by rw [List.getElem?_append_left hi, hs])

theorem Has.right {start : Nat} {states others : List State} (h : a.Has start (states ++ others)) :
    a.Has (start + states.length) others := by
  intro i s hs
  rw [Nat.add_assoc]
  refine h _ s ?_
  rw [List.getElem?_append_right (Nat.le_add_right _ _), Nat.add_sub_cancel_left, hs]

/-- Wherever a fragment is laid out, its start leads on to a search from what follows it, at the
cursors that `ends` names. -/
def Fragment.Follows (f : Fragment) (ends : Cursor → List Cursor) : Prop :=
  ∀ (a : Automaton) (start next : Nat), a.Has start (f.states start next) →
    ∀ c r, a.Searches next (ends c) r → a.Settles start c r

namespace Fragment

theorem Follows.empty : empty.Follows fun c => [c] := by
  intro a start next hs c r h
  obtain ⟨n, h⟩ := settles_of_searches h
  exact ⟨_, .go hs.head h⟩

theorem Follows.andThen {f g : Fragment} {ends ends' : Cursor → List Cursor} (hf : f.Follows ends)
    (hfit : f.Fits) (hg : g.Follows ends') :
    (f.andThen g).Follows fun c => (ends c).flatMap ends' := by
  intro a start next hs c r h
  have hright := hs.right
  rw [hfit] at hright
  exact hf _ _ _ hs.left c r (searches_of_flatMap (fun d _ r hd => hg _ _ _ hright d r hd) h)

theorem Follows.orElse {f g : Fragment} {ends ends' : Cursor → List Cursor} (hf : f.Follows ends)
    (hfit : f.Fits) (hg : g.Follows ends') : (f.orElse g).Follows fun c => ends c ++ ends' c := by
  intro a start next hs c r h
  have hright := hs.tail.right
  rw [hfit] at hright
  obtain ⟨r₁, r₂, h₁, h₂, rfl⟩ := searches_append h
  obtain ⟨n, h₁⟩ := hf _ _ _ hs.tail.left c r₁ h₁
  obtain ⟨m, h₂⟩ := hg _ _ _ hright c r₂ h₂
  exact ⟨_, .fork hs.head h₁ h₂⟩

theorem Follows.optional {f : Fragment} {ends : Cursor → List Cursor} (greedy : Bool)
    (hf : f.Follows ends) (hfit : f.Fits) :
    (optional greedy f).Follows fun c => if greedy then ends c ++ [c] else c :: ends c := by
  cases greedy
  · exact Follows.empty.orElse (fits_single _) hf
  · exact hf.orElse hfit Follows.empty

theorem Follows.upTo {f : Fragment} {ends : Cursor → List Cursor} (greedy : Bool)
    (hf : f.Follows ends) (hfit : f.Fits) (n : Nat) :
    (f.upTo greedy n).Follows (Pattern.endsOfRounds greedy ends n) := by
  induction n with
  | zero => exact Follows.empty
  | succ n ih => exact (hf.andThen hfit ih).optional greedy (hfit.andThen (hfit.upTo greedy n))

/-- One more choice of a round at `start`, where the states of a body that ends at `start` begin at
`first`. The induction is on the characters left to read. -/
theorem settles_loop {f : Fragment} {ends : Cursor → List Cursor} (hf : f.Follows ends)
    (hless : ∀ c, ∀ d ∈ ends c, d.rest.length < c.rest.length) {greedy : Bool}
    {start first next : Nat}
    (hfork : a.states[start]? = some (if greedy then .fork first next else .fork next first))
    (hbody : a.Has first (f.states first start)) {c : Cursor} {r : Option Cursor}
    (h : a.Searches next (Pattern.endsOfRounds greedy ends c.rest.length c) r) :
    a.Settles start c r := by
  induction hlen : c.rest.length using Nat.strongRecOn generalizing c r with
  | ind k ih =>
    rw [← Pattern.endsOfRounds_eq hless (Nat.le_succ _), Pattern.endsOfRounds] at h
    have again : ∀ r, a.Searches next
        ((ends c).flatMap (Pattern.endsOfRounds greedy ends c.rest.length)) r →
        a.Settles first c r := by
      intro r h
      refine hf _ _ _ hbody c r (searches_of_flatMap (fun d hd r h => ?_) h)
      have hlt := hless c d hd
      rw [Pattern.endsOfRounds_eq hless (Nat.le_of_lt hlt)] at h
      exact ih d.rest.length (hlen ▸ hlt) h rfl
    cases greedy
    · obtain ⟨r₁, r₂, h₁, h₂, rfl⟩ := @searches_append _ _ [c] _ _ h
      obtain ⟨n, h₁⟩ := settles_of_searches h₁
      obtain ⟨m, h₂⟩ := again r₂ h₂
      exact ⟨_, .fork hfork h₁ h₂⟩
    · obtain ⟨r₁, r₂, h₁, h₂, rfl⟩ := searches_append h
      obtain ⟨n, h₁⟩ := again r₁ h₁
      obtain ⟨m, h₂⟩ := settles_of_searches h₂
      exact ⟨_, .fork hfork h₁ h₂⟩

theorem Follows.loop {f : Fragment} {ends : Cursor → List Cursor} (greedy : Bool)
    (hf : f.Follows ends) (hless : ∀ c, ∀ d ∈ ends c, d.rest.length < c.rest.length) :
    (f.loop greedy).Follows fun c => Pattern.endsOfRounds greedy ends c.rest.length c := by
  intro a start next hs c r h
  have hfork : a.states[start]? =
      some (if greedy then .fork (start + 1) next else .fork next (start + 1)) := hs.head
  exact settles_loop hf hless hfork hs.tail h

theorem Follows.rounds {f : Fragment} {ends : Cursor → List Cursor} (greedy : Bool)
    (hf : f.Follows ends) (hfit : f.Fits)
    (hless : ∀ c, ∀ d ∈ ends c, d.rest.length < c.rest.length) :
    (f.rounds greedy).Follows fun c =>
      (ends c).flatMap fun d => Pattern.endsOfRounds greedy ends d.rest.length d := by
  intro a start next hs c r h
  have hlast := hs.right
  rw [hfit] at hlast
  have hfork : a.states[start + f.size]? =
      some (if greedy then .fork start next else .fork next start) := hlast.head
  have hbody : a.Has start (f.states start (start + f.size)) := hs.left
  exact hf _ _ _ hbody c r
    (searches_of_flatMap (fun d _ r h => settles_loop hf hless hfork hbody h) h)

theorem Follows.exactlyThen {f g : Fragment} {body : Cursor → List Cursor} {greedy : Bool}
    (hf : f.Follows body) (hfit : f.Fits) {least : Nat} (n : Nat) {most : Option Nat}
    (hg : g.Follows (Pattern.endsOfRep greedy body least (most.map (· - n)))) :
    (f.exactlyThen g n).Follows (Pattern.endsOfRep greedy body (least + n) most) := by
  induction n generalizing most with
  | zero =>
    have hmost : most.map (· - 0) = most := by simp
    rwa [hmost] at hg
  | succ n ih =>
    refine hf.andThen hfit (ih ?_)
    rwa [Option.map_map, show (· - n) ∘ (· - 1) = (· - (n + 1) : Nat → Nat) from
      funext fun k => by simp only [Function.comp_apply]; omega]

theorem Follows.times {f : Fragment} {body : Cursor → List Cursor} (hf : f.Follows body)
    (hfit : f.Fits) {least : Nat} {most : Option Nat} {greedy canBeEmpty : Bool}
    (hless : most = none →
      canBeEmpty = false ∧ ∀ c, ∀ d ∈ body c, d.rest.length < c.rest.length) :
    (f.times least most greedy canBeEmpty).Follows (Pattern.endsOfRep greedy body least most) := by
  -- The last of the rounds that are needed is a part of its own where there may be further ones.
  unfold Fragment.times
  split
  · exact hf.upTo greedy hfit _
  · rename_i most n
    split
    · rename_i hle
      have hlast : f.Follows (Pattern.endsOfRep greedy body 1 ((some most).map (· - n))) := by
        have hzero : most - n - 1 = 0 := by omega
        have hsingle : Pattern.endsOfRep greedy body 0 (some 0) = fun c => [c] := rfl
        have heq : Pattern.endsOfRep greedy body 1 ((some most).map (· - n)) = body := by
          funext c
          rw [Pattern.endsOfRep, Option.map_some, Option.map_some, hzero, hsingle,
            List.flatMap_singleton']
        rwa [heq]
      rw [show n.succ = 1 + n from Nat.add_comm n 1]
      exact hf.exactlyThen hfit n hlast
    · rw [show n.succ = 0 + (n + 1) from (Nat.zero_add _).symm]
      exact hf.exactlyThen hfit (n + 1) (hf.upTo greedy hfit _)
  · obtain ⟨hempty, hless⟩ := hless rfl
    rw [hempty]
    exact hf.loop greedy hless
  · rename_i n
    obtain ⟨-, hless⟩ := hless rfl
    rw [show n.succ = 1 + n from Nat.add_comm n 1]
    exact hf.exactlyThen hfit n (hf.rounds greedy hfit hless)

end Fragment

/-- The states of a steady pattern lead on to what the pattern prefers. -/
theorem follows_fragment {p : Pattern} (hp : p.isSteady = true) : p.fragment.Follows p.ends := by
  -- on the pattern, with one lemma for each way in which fragments are put together
  induction p with
  | empty => exact Fragment.Follows.empty
  | char set =>
    intro a start next hs c r h
    have hstate : a.states[start]? = some (.char set next) := hs.head
    rw [Pattern.ends] at h
    split at h
    · rename_i hrest
      cases h
      exact ⟨0, .stuck hstate (by rw [hrest]; rfl)⟩
    · rename_i ch rest hrest
      by_cases hset : set.holds ch = true
      · rw [if_pos hset] at h
        obtain ⟨n, h⟩ := settles_of_searches h
        exact ⟨0, .read hstate hrest hset h⟩
      · rw [if_neg hset] at h
        cases h
        exact ⟨0, .stuck hstate (by rw [hrest]; exact Bool.eq_false_iff.2 hset)⟩
  | wordBoundary =>
    intro a start next hs c r h
    have hstate : a.states[start]? = some (.wordBoundary next) := hs.head
    rw [Pattern.ends] at h
    by_cases hc : c.atWordBoundary = true
    · rw [if_pos hc] at h
      obtain ⟨n, h⟩ := settles_of_searches h
      exact ⟨n + 1, .boundary hstate hc h⟩
    · rw [if_neg hc] at h
      cases h
      exact ⟨0, .noBoundary hstate (Bool.eq_false_iff.2 hc)⟩
  | seq p q ihp ihq =>
    obtain ⟨hp, hq⟩ := Bool.and_eq_true_iff.1 hp
    exact (ihp hp).andThen p.fits_fragment (ihq hq)
  | alt p q ihp ihq =>
    obtain ⟨hp, hq⟩ := Bool.and_eq_true_iff.1 hp
    exact (ihp hp).orElse p.fits_fragment (ihq hq)
  | rep least most greedy p ih =>
    obtain ⟨hp, hless⟩ := Bool.and_eq_true_iff.1 hp
    refine (ih hp).times p.fits_fragment fun hmost => ?_
    rw [hmost, Option.isSome_none, Bool.false_or, Bool.not_eq_true'] at hless
    exact ⟨hless, fun c d hd => Pattern.length_lt_of_mem_ends hless hd⟩
  | group name? p ih => exact ih hp

theorem has_ofPattern (p : Pattern) :
    (ofPattern p).Has 0 (p.fragment.states 0 p.fragment.size) := by
  intro i s hs
  have hi := (List.getElem?_eq_some_iff.1 hs).1
  rw [ofPattern, Nat.zero_add, List.getElem?_toArray, List.getElem?_append_left hi, hs]

/-- Backtracking in the automaton of a steady pattern finds the preferred match. -/
theorem settles_ofPattern {p : Pattern} (hp : p.isSteady = true) (c : Cursor) :
    (ofPattern p).Settles 0 c (p.ends c).head? := by
  have haccept : (ofPattern p).states[p.fragment.size]? = some .accept :=
    states_ofPattern_size p
  refine follows_fragment hp _ _ _ (has_ofPattern p) c _ ?_
  generalize p.ends c = cs
  cases cs with
  | nil => exact .nil
  | cons d ds =>
    have hall : ∃ r, (ofPattern p).Searches p.fragment.size ds r := by
      induction ds with
      | nil => exact ⟨none, .nil⟩
      | cons e es ih =>
        obtain ⟨r, hr⟩ := ih
        exact ⟨_, .cons ⟨0, .accept haccept⟩ hr⟩
    obtain ⟨r, hr⟩ := hall
    exact .cons (r := some d) ⟨0, .accept haccept⟩ hr

end CStruct.Automaton
