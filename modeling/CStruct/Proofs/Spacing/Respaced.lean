import CStruct.Proofs.Comments.Scanning

/-!
# Texts with other blanks

Two texts are `Respaced` if they are the same but for their runs of blanks, and these stand in the
same places. The scanner finds the same lexemes in both, as long as nothing but blanks is between
lexemes: a type keyword of several words has a space of its own, which has to stay as it is.
-/

namespace CStruct

open Scanner

/-! ## Runs of blanks -/

/-- One blank after the other, at least one of them. -/
def IsRun (g : List Char) : Prop := g ≠ [] ∧ g.all Text.isBlank = true

instance (g : List Char) : Decidable (IsRun g) :=
  inferInstanceAs (Decidable (g ≠ [] ∧ g.all Text.isBlank = true))

namespace IsRun

variable {g : List Char}

theorem isBlank (hg : IsRun g) {c : Char} (hc : c ∈ g) : Text.isBlank c = true :=
  List.all_eq_true.1 hg.2 c hc

theorem exists_head? (hg : IsRun g) (u : List Char) :
    ∃ c, (g ++ u).head? = some c ∧ Text.isBlank c = true := by
  obtain ⟨c, cs, rfl⟩ := List.exists_cons_of_ne_nil hg.1
  exact ⟨c, rfl, hg.isBlank List.mem_cons_self⟩

theorem exists_getLast? (hg : IsRun g) : ∃ c, g.getLast? = some c ∧ Text.isBlank c = true := by
  obtain ⟨c, hc⟩ := Option.ne_none_iff_exists'.1 fun h => hg.1 (List.getLast?_eq_none_iff.1 h)
  exact ⟨c, hc, hg.isBlank (List.mem_of_getLast? hc)⟩

/-- A text that begins with a blank begins with a whole run of them. -/
theorem exists_append {c : Char} (hc : Text.isBlank c = true) (cs : List Char) :
    ∃ g u, IsRun g ∧ u.head?.any Text.isBlank = false ∧ c :: cs = g ++ u := by
  refine ⟨c :: cs.takeWhile Text.isBlank, cs.dropWhile Text.isBlank, ⟨List.cons_ne_nil _ _, ?_⟩,
    ?_, ?_⟩
  · rw [List.all_cons, hc, List.all_takeWhile]
    rfl
  · have hhead := List.head?_dropWhile_not Text.isBlank cs
    cases hd : (cs.dropWhile Text.isBlank).head? with
    | none => rfl
    | some d => rwa [hd] at hhead
  · rw [List.cons_append, List.takeWhile_append_dropWhile]

end IsRun

/-- What follows in a text ends like the text. -/
theorem any_getLast?_of_append {g w : List Char} {f : Char → Bool}
    (h : (g ++ w).getLast?.any f = false) : w.getLast?.any f = false := by
  rw [List.getLast?_append] at h
  cases hlast : w.getLast? with
  | none => rfl
  | some c => rwa [hlast] at h

/-- The text that begins at the second position is the text that begins at the first, with other
blanks: whole runs of blanks stand for whole runs of blanks. A run that begins at a position which
is `kept` in the first text, or `kept'` in the second, stands as it is. -/
inductive Respaced (kept kept' : Position → Prop) :
    Position → Position → List Char → List Char → Prop where
  | done {p q : Position} : Respaced kept kept' p q [] []
  | char {p q : Position} {c : Char} {u v : List Char} (hc : Text.isBlank c = false)
      (h : Respaced kept kept' (p.next c) (q.next c) u v) :
      Respaced kept kept' p q (c :: u) (c :: v)
  | run {p q : Position} {g g' u v : List Char} (hg : IsRun g) (hg' : IsRun g')
      (hu : u.head?.any Text.isBlank = false) (hv : v.head?.any Text.isBlank = false)
      (hkept : kept p ∨ kept' q → g = g') (h : Respaced kept kept' (p.after g) (q.after g') u v) :
      Respaced kept kept' p q (g ++ u) (g' ++ v)

namespace Respaced

variable {kept kept' : Position → Prop} {p q : Position} {u v : List Char}

theorem symm (h : Respaced kept kept' p q u v) : Respaced kept' kept q p v u := by
  induction h with
  | done => exact .done
  | char hc _ ih => exact .char hc ih
  | run hg hg' hu hv hkept _ ih => exact .run hg' hg hv hu (fun h => (hkept h.symm).symm) ih

/-- A text that does not end in a blank can stand before both texts. -/
theorem prepend {w : List Char} (hlast : w.getLast?.any Text.isBlank = false)
    (h : Respaced kept kept' (p.after w) (q.after w) u v) :
    Respaced kept kept' p q (w ++ u) (w ++ v) := by
  induction hlen : w.length using Nat.strongRecOn generalizing w p q with
  | ind n ih =>
    subst hlen
    cases w with
    | nil => exact h
    | cons c w =>
      cases hc : Text.isBlank c with
      | false =>
        have hlast' := any_getLast?_of_append (g := [c]) hlast
        exact .char hc (ih w.length (Nat.lt_succ_self _) hlast' h rfl)
      | true =>
        -- the run of blanks that begins here ends inside the text
        obtain ⟨g, t, hg, ht, hw⟩ := IsRun.exists_append hc w
        rw [hw] at hlast h ⊢
        cases t with
        | nil =>
          obtain ⟨d, hd, hblank⟩ := hg.exists_getLast?
          rw [List.append_nil, hd, Option.any_some, hblank] at hlast
          cases hlast
        | cons d t =>
          have hshort : (d :: t).length < (c :: w).length := by
            have := List.length_pos_iff.2 hg.1
            rw [hw, List.length_append]
            omega
          have hlast' := any_getLast?_of_append hlast
          rw [Position.after_append, Position.after_append] at h
          rw [List.append_assoc, List.append_assoc]
          exact .run hg hg ht ht (fun _ => rfl) (ih _ hshort hlast' h rfl)

/-- What holds of no blank holds of the first characters of both texts or of neither. -/
theorem any_head? (h : Respaced kept kept' p q u v) {f : Char → Bool}
    (hf : ∀ c, Text.isBlank c = true → f c = false) : u.head?.any f = v.head?.any f := by
  cases h with
  | done => rfl
  | char => rfl
  | @run p q g g' u v hg hg' =>
    obtain ⟨c, hc, hblank⟩ := hg.exists_head? u
    obtain ⟨d, hd, hblank'⟩ := hg'.exists_head? v
    rw [hc, hd, Option.any_some, Option.any_some, hf c hblank, hf d hblank']

/-! ## What the texts begin with -/

/-- Both texts begin with the same `n` characters, and what follows is respaced. -/
def Begin (kept kept' : Position → Prop) (p q : Position) (u v : List Char) (n : Nat) : Prop :=
  ∃ w u' v', w.length = n ∧ u = w ++ u' ∧ v = w ++ v' ∧
    Respaced kept kept' (p.after w) (q.after w) u' v'

theorem Begin.zero (h : Respaced kept kept' p q u v) : Begin kept kept' p q u v 0 :=
  ⟨[], u, v, rfl, rfl, rfl, h⟩

theorem Begin.cons {n : Nat} (c : Char) (h : Begin kept kept' (p.next c) (q.next c) u v n) :
    Begin kept kept' p q (c :: u) (c :: v) (n + 1) := by
  obtain ⟨w, u', v', hlength, rfl, rfl, hrest⟩ := h
  exact ⟨c :: w, u', v', congrArg (· + 1) hlength, rfl, rfl, hrest⟩

theorem Begin.append {n : Nat} (g : List Char)
    (h : Begin kept kept' (p.after g) (q.after g) u v n) :
    Begin kept kept' p q (g ++ u) (g ++ v) (n + g.length) := by
  induction g generalizing p q with
  | nil => exact h
  | cons c g ih => exact (ih h).cons c

theorem begin_one {c : Char} (h : Respaced kept kept' p q (c :: u) v)
    (hc : Text.isBlank c = false) : Begin kept kept' p q (c :: u) v 1 := by
  generalize ht : c :: u = t at h
  cases h with
  | done => cases ht
  | char _ h =>
    cases ht
    exact (Begin.zero h).cons c
  | @run p q g g' u₁ v hg hg' =>
    -- a run does not begin with a character that is no blank
    obtain ⟨d, hd, hblank⟩ := hg.exists_head? u₁
    rw [← ht] at hd
    cases hd
    rw [hc] at hblank
    cases hblank

/-- The characters of one sort up to the next one of another, where blanks are of another. -/
theorem begin_runLength (h : Respaced kept kept' p q u v) {f : Char → Bool}
    (hf : ∀ c, Text.isBlank c = true → f c = false) :
    runLength f v = runLength f u ∧ Begin kept kept' p q u v (runLength f u) := by
  have hstop {p q : Position} {u v : List Char} (h : Respaced kept kept' p q u v)
      (hu : runLength f u = 0) : Begin kept kept' p q u v (runLength f u) := hu ▸ .zero h
  induction h with
  | done => exact ⟨rfl, hstop .done rfl⟩
  | @char p q c u v hc h ih =>
    by_cases hfc : f c = true
    · rw [Rendering.runLength_cons hfc, Rendering.runLength_cons hfc]
      exact ⟨congrArg (· + 1) ih.1, ih.2.cons c⟩
    · have hzero (cs : List Char) : runLength f (c :: cs) = 0 :=
        Rendering.runLength_of_head (by rintro _ ⟨⟩; exact Bool.eq_false_iff.2 hfc)
      exact ⟨(hzero v).trans (hzero u).symm, hstop (.char hc h) (hzero u)⟩
  | @run p q g g' u v hg hg' hu hv hkept h =>
    have hzero {g : List Char} (hg : IsRun g) (cs : List Char) : runLength f (g ++ cs) = 0 := by
      obtain ⟨c, hc, hblank⟩ := hg.exists_head? cs
      refine Rendering.runLength_of_head fun d hd => ?_
      rw [hc] at hd
      cases hd
      exact hf c hblank
    exact ⟨(hzero hg' v).trans (hzero hg u).symm, hstop (.run hg hg' hu hv hkept h) (hzero hg u)⟩

/-- A text that does not end in a blank, and whose runs of blanks are all kept. -/
theorem begin_kept {w t : List Char} (h : Respaced kept kept' p q (w ++ t) v)
    (hlast : w.getLast?.any Text.isBlank = false)
    (hkept : ∀ r, p ≤ r → r < p.after w → kept r) :
    Begin kept kept' p q (w ++ t) v w.length := by
  generalize hu : w ++ t = u at h
  induction h generalizing w with
  | done =>
    obtain ⟨rfl, rfl⟩ := List.append_eq_nil_iff.1 hu
    exact .zero .done
  | @char p q c u v hc h ih =>
    cases w with
    | nil => exact .zero (.char hc h)
    | cons d w =>
      obtain ⟨rfl, htail⟩ := List.cons.inj hu
      have hlast' := any_getLast?_of_append (g := [d]) hlast
      have hle := Position.le_of_lt (Position.lt_next p d)
      exact (ih hlast' (fun r hr => hkept r (Position.le_trans hle hr)) htail).cons d
  | @run p q g g' u v hg hg' hu' hv' hsame h ih =>
    by_cases hw : w = []
    · subst hw
      exact .zero (.run hg hg' hu' hv' hsame h)
    obtain ⟨c, hc⟩ := Option.ne_none_iff_exists'.1 fun h => hw (List.getLast?_eq_none_iff.1 h)
    rcases List.append_eq_append_iff.1 hu with ⟨more, hgw, -⟩ | ⟨w', rfl, htail⟩
    · -- the text would end inside the run
      have hblank := hg.isBlank (hgw ▸ List.mem_append_left more (List.mem_of_getLast? hc))
      rw [hc, Option.any_some, hblank] at hlast
      cases hlast
    · obtain rfl : g = g' := hsame (.inl (hkept p (Position.le_refl p)
        (Position.lt_after p hw)))
      have hlast' := any_getLast?_of_append hlast
      rw [Position.after_append] at hkept
      have hfurther := ih hlast'
        (fun r hr => hkept r (Position.le_trans (Position.le_after p g) hr)) htail.symm
      rw [List.length_append, Nat.add_comm]
      exact hfurther.append g

end Respaced

end CStruct
