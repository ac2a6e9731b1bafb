import CStruct.Symbol.Table
import Mathlib.Tactic.ByContra

/-!
# The braces around a place

What stands between an opening brace and the brace that closes it is enclosed by the two. The braces
that enclose a place are found by going through the text up to there: an opening brace is put on a
stack, a closing one takes the innermost off.
-/

namespace CStruct

open SymbolTable

variable {text : Nat → String} {i n b c : Nat}

def IsBrace (word : String) : Prop := word = openBrace ∨ word = closeBrace

instance (word : String) : Decidable (IsBrace word) := inferInstanceAs (Decidable (_ ∨ _))

/-- The opening braces before `i` that have not been closed there, the innermost first. -/
def openBraces (text : Nat → String) : Nat → List Nat
  | 0 => []
  | i + 1 =>
    if text i = openBrace then i :: openBraces text i
    else if text i = closeBrace then (openBraces text i).tail
    else openBraces text i

/-- The brace at `c` closes the one at `b`. -/
def Closes (text : Nat → String) (b c : Nat) : Prop :=
  text c = closeBrace ∧ (openBraces text c).head? = some b

theorem openBraces_open (h : text i = openBrace) :
    openBraces text (i + 1) = i :: openBraces text i := by
  rw [openBraces, if_pos h]

theorem openBraces_close (h : text i = closeBrace) :
    openBraces text (i + 1) = (openBraces text i).tail := by
  have hne : text i ≠ openBrace := by
    rw [h]
    decide
  rw [openBraces, if_neg hne, if_pos h]

theorem openBraces_other (h : ¬IsBrace (text i)) :
    openBraces text (i + 1) = openBraces text i := by
  rw [openBraces, if_neg fun heq => h (.inl heq), if_neg fun heq => h (.inr heq)]

/-- A brace that is open at one place and not at a later one is closed in between. -/
theorem exists_closes (hopen : b ∈ openBraces text i) (hclosed : b ∉ openBraces text n)
    (hle : i ≤ n) : ∃ c, c < n ∧ Closes text b c := by
  induction n with
  | zero =>
    have hi : i = 0 := by omega
    subst hi
    exact absurd hopen hclosed
  | succ n ih =>
    by_cases hin : b ∈ openBraces text n
    · -- only the symbol at `n` can have closed the brace
      refine ⟨n, Nat.lt_succ_self n, ?_⟩
      rw [openBraces] at hclosed
      split at hclosed
      · exact absurd (List.mem_cons_of_mem n hin) hclosed
      · split at hclosed
        · rename_i hclose
          refine ⟨hclose, ?_⟩
          cases hstack : openBraces text n with
          | nil =>
            rw [hstack] at hin
            cases hin
          | cons d ds =>
            rw [hstack] at hin hclosed
            rcases List.mem_cons.1 hin with rfl | hin
            · rfl
            · exact absurd hin hclosed
        · exact absurd hin hclosed
    · -- it was closed earlier
      have hlt : i ≠ n + 1 := by
        rintro rfl
        exact hclosed hopen
      obtain ⟨c, hc, hcloses⟩ := ih hin (by omega)
      exact ⟨c, by omega, hcloses⟩

theorem lt_of_mem_openBraces (h : b ∈ openBraces text i) : b < i := by
  induction i with
  | zero => cases h
  | succ i ih =>
    rw [openBraces] at h
    split at h
    · rcases List.mem_cons.1 h with rfl | h
      · exact Nat.lt_succ_self b
      · have := ih h
        omega
    · split at h
      · have := ih (List.mem_of_mem_tail h)
        omega
      · have := ih h
        omega

theorem nodup_openBraces (text : Nat → String) (i : Nat) : (openBraces text i).Nodup := by
  induction i with
  | zero => exact List.nodup_nil
  | succ i ih =>
    rw [openBraces]
    split
    · apply List.nodup_cons.2 ⟨_, ih⟩
      intro h
      exact Nat.lt_irrefl i (lt_of_mem_openBraces h)
    · split
      · exact ih.sublist (List.tail_sublist _)
      · exact ih

/-- A brace that has been closed is not opened again. -/
theorem not_mem_openBraces_of_le (hb : b < i) (hclosed : b ∉ openBraces text i) (hle : i ≤ n) :
    b ∉ openBraces text n := by
  induction hle with
  | refl => exact hclosed
  | @step n hle ih =>
    have hle : i ≤ n := hle
    rw [openBraces]
    split
    · intro h
      rcases List.mem_cons.1 h with heq | h
      · omega
      · exact ih h
    · split
      · exact fun h => ih (List.mem_of_mem_tail h)
      · exact ih

theorem Closes.mem (h : Closes text b c) : b ∈ openBraces text c :=
  List.mem_of_head? h.2

theorem Closes.not_mem (h : Closes text b c) : b ∉ openBraces text (c + 1) := by
  rw [openBraces_close h.1]
  have hnodup := nodup_openBraces text c
  obtain ⟨bs, hstack⟩ := List.head?_eq_some_iff.1 h.2
  rw [hstack] at hnodup ⊢
  exact (List.nodup_cons.1 hnodup).1

/-- A brace is closed once. -/
theorem Closes.le (h : Closes text b c) {c' : Nat} (h' : Closes text b c') : c' ≤ c := by
  by_contra hlt
  have hb := lt_of_mem_openBraces h.mem
  exact not_mem_openBraces_of_le (by omega) h.not_mem (by omega) h'.mem

theorem Closes.unique (h : Closes text b c) {c' : Nat} (h' : Closes text b c') : c = c' :=
  Nat.le_antisymm (h'.le h) (h.le h')

/-! ## The bodies of structs -/

/-- How a sequence of symbols is spelled. -/
def spelling (symbols : Nat → Symbol) (i : Nat) : String := (symbols i).value

/-- The struct whose body stands between the braces at `b` and `c` has its body under the name at
`d`: its tag, which stands right before the body, or the name right behind it if there is no tag. -/
def NamesBody (symbols : Nat → Symbol) (b c d : Nat) : Prop :=
  if (symbols (b - 1)).kind = .name then d + 1 = b else d = c + 1

/-- The brace at `b` opens a body, and `k` is the inner scope of its struct. -/
def OpensScope (symbols : Nat → Symbol) (b : Nat) (k : ScopeId) : Prop :=
  ∃ c d, Closes (spelling symbols) b c ∧ NamesBody symbols b c d ∧
    (symbols d).innerScope? = some k

/-- The innermost body that encloses the symbol at `i` has the scope `k`, which is the outermost
scope if no body does. -/
inductive LiesIn (symbols : Nat → Symbol) (i : Nat) : ScopeId → Prop
  | outside (hnone : (openBraces (spelling symbols) i).head? = none) : LiesIn symbols i 0
  | body {b : Nat} {k : ScopeId} (hsome : (openBraces (spelling symbols) i).head? = some b)
    (hscope : OpensScope symbols b k) : LiesIn symbols i k

theorem NamesBody.unique {symbols : Nat → Symbol} {d d' : Nat} (h : NamesBody symbols b c d)
    (h' : NamesBody symbols b c d') : d = d' := by
  unfold NamesBody at h h'
  split at h
  · rename_i hname
    rw [if_pos hname] at h'
    omega
  · rename_i hname
    rw [if_neg hname] at h'
    omega

/-- No symbol lies in two scopes. -/
theorem LiesIn.unique {symbols : Nat → Symbol} {k k' : ScopeId} (h : LiesIn symbols i k)
    (h' : LiesIn symbols i k') : k = k' := by
  cases h with
  | outside hnone =>
    cases h' with
    | outside => rfl
    | body hsome => cases hnone.symm.trans hsome
  | body hsome hscope =>
    cases h' with
    | outside hnone => cases hnone.symm.trans hsome
    | body hsome' hscope' =>
      cases hsome.symm.trans hsome'
      -- the brace determines where its body ends, and with that the name of the struct
      obtain ⟨c, d, hcloses, hnames, hinner⟩ := hscope
      obtain ⟨c', d', hcloses', hnames', hinner'⟩ := hscope'
      cases hcloses.unique hcloses'
      cases hnames.unique hnames'
      exact Option.some.inj (hinner.symm.trans hinner')

/-! ## The numbers of bodies -/

/-- How many braces are opened before `i`. -/
def opened (text : Nat → String) : Nat → Nat
  | 0 => 0
  | i + 1 => if text i = openBrace then opened text i + 1 else opened text i

/-- The number of the scope of the body that the brace at `b` opens: bodies are numbered as they are
opened. -/
def bodyScope (text : Nat → String) (b : Nat) : ScopeId := opened text b + 1

/-- The number of the scope that `i` lies in. -/
def enclosingScope (text : Nat → String) (i : Nat) : ScopeId :=
  ((openBraces text i).head?.map (bodyScope text)).getD 0

/-- Where the scope of a symbol is that of its place: for one right behind an opening brace, that is
where the brace stands. -/
def seat (text : Nat → String) (i : Nat) : Nat :=
  if text (i - 1) = openBrace then i - 1 else i

theorem opened_open (h : text i = openBrace) : opened text (i + 1) = opened text i + 1 := by
  rw [opened, if_pos h]

theorem opened_other (h : text i ≠ openBrace) : opened text (i + 1) = opened text i := by
  rw [opened, if_neg h]

theorem seat_open (h : text i = openBrace) : seat text (i + 1) = i := if_pos h

theorem seat_other (h : text i ≠ openBrace) : seat text (i + 1) = i + 1 := if_neg h

theorem seat_le (text : Nat → String) (i : Nat) : seat text i ≤ i := by
  unfold seat
  split
  · exact Nat.sub_le i 1
  · exact Nat.le_refl i

end CStruct
