import CStruct.Proofs.Declared.Nested

/-!
# The structs of a scope in order

A part of a source answers with the names of the structs that it declares. They are `Listed`: these
names, in the order in which they stand, are all that the part declares in its scope but for members
and typedef names of tagged structs. What else it declares stands in scopes that it opens.
-/

namespace CStruct.Parse

open SymbolTable State

variable {s s' : State} {n d e : SymbolId} {k : ScopeId} {m : Nat}
  {names names' : List SymbolId}

namespace State

/-- The name was declared in the scope `k` as a struct. -/
def Heads (s : State) (k : ScopeId) (d : SymbolId) : Prop :=
  ∃ x, s.IsDeclared d k .struct x ∧ x.isAlias = false

theorem Heads.declared (h : s.Heads k d) : ¬s.Undeclared d := by
  obtain ⟨x, hx, -⟩ := h
  exact hx.declared

theorem not_heads_of_member {x : Declaration} {j : ScopeId} (h : s.IsDeclared d j .member x) :
    ¬s.Heads k d := by
  rintro ⟨y, hy, -⟩
  have heq : x = y := Option.some.inj (h.declaration?.symm.trans hy.declaration?)
  subst heq
  exact absurd (h.keyword.std.symm.trans hy.keyword.std) nofun

theorem not_heads_of_isAlias {x : Declaration} {std : StatementDenotation} {j : ScopeId}
    (h : s.IsDeclared d j std x) (halias : x.isAlias = true) : ¬s.Heads k d := by
  rintro ⟨y, hy, hyalias⟩
  have heq : x = y := Option.some.inj (h.declaration?.symm.trans hy.declaration?)
  subst heq
  exact absurd (halias.symm.trans hyalias) nofun

theorem Heads.of_symbol_eq (h : s.Heads k d) (hself : s'.symbol d = s.symbol d)
    (hkeyword : ∀ i < d, s.IsKeyword i .struct → s'.IsKeyword i .struct) : s'.Heads k d := by
  obtain ⟨x, hx, halias⟩ := h
  exact ⟨x, hx.transfer hself (hkeyword _ hx.lt), halias⟩

theorem heads_iff_of_spares (hs : Bounds n s) (h : Spares n s s') (hd : d < n) :
    s'.Heads k d ↔ s.Heads k d := by
  have hsymbol {i : SymbolId} (hi : i ≤ d) : s'.symbol i = s.symbol i :=
    h.symbol_of_lt hs (Nat.lt_of_le_of_lt hi hd)
  constructor
  · intro hheads
    apply hheads.of_symbol_eq (hsymbol (Nat.le_refl d)).symm
    exact fun i hi hkeyword => hkeyword.of_symbol_eq (hsymbol (Nat.le_of_lt hi)).symm
  · intro hheads
    apply hheads.of_symbol_eq (hsymbol (Nat.le_refl d))
    exact fun i hi hkeyword => hkeyword.of_symbol_eq (hsymbol (Nat.le_of_lt hi))

/-- A name that is changed and stays a name is no keyword before or after. -/
theorem heads_iff_of_alters (h : Alters e s s') (he : (s.symbol e).kind = .name)
    (he' : (s'.symbol e).kind = .name) (hne : d ≠ e) : s'.Heads k d ↔ s.Heads k d :=
  ⟨fun hheads => hheads.of_symbol_eq (h.symbol d hne).symm fun _ _ => h.symm.isKeyword he',
    fun hheads => hheads.of_symbol_eq (h.symbol d hne) fun _ _ => h.isKeyword he⟩

/-- The names from `n` on that were declared as structs in the scope `k` are `names`. Whatever else
was declared from `n` on stands in that scope as well, or in one of the scopes from `m` on. -/
structure Listed (n : SymbolId) (k : ScopeId) (m : Nat) (names : List SymbolId) (s : State) :
    Prop where
  sorted : names.Pairwise (· < ·)
  mem : ∀ d, d ∈ names ↔ n ≤ d ∧ s.Heads k d
  scope? : ∀ d, n ≤ d → ¬s.Undeclared d → ∃ j, (s.symbol d).scope? = some j ∧ (j = k ∨ m ≤ j)

namespace Listed

/-- Where a part of a source starts, nothing has been declared. -/
theorem start (h : s.Steady) (k : ScopeId) (m : Nat) : Listed s.token k m [] s where
  sorted := .nil
  mem := fun d => by
    refine ⟨nofun, fun ⟨hle, hd⟩ => ?_⟩
    exact absurd (h.undeclared_of_le hle) hd.declared
  scope? := fun d hle hd => absurd (h.undeclared_of_le hle) hd

/-- What follows declares names in scopes of its own only. -/
theorem of_spares {b : SymbolId} (h : Listed n k m names s) (hs : Bounds b s)
    (hspares : Spares b s s') (hnew : ∀ d, b ≤ d → ¬s'.Undeclared d →
      ∃ j, (s'.symbol d).scope? = some j ∧ m ≤ j ∧ j ≠ k) : Listed n k m names s' where
  sorted := h.sorted
  mem := fun d => by
    rw [h.mem]
    by_cases hd : d < b
    · rw [heads_iff_of_spares hs hspares hd]
    · -- from `b` on, nothing was declared before, and nothing in the scope `k` has been since
      have hold : ¬s.Heads k d := fun hheads => hd (hs.declared d hheads.declared)
      have hnot : ¬s'.Heads k d := by
        intro hheads
        obtain ⟨j, hj, -, hne⟩ := hnew d (Nat.le_of_not_lt hd) hheads.declared
        obtain ⟨x, hx, -⟩ := hheads
        exact hne (Option.some.inj (hj.symm.trans hx.scope?))
      rw [iff_false_intro hold, iff_false_intro hnot]
  scope? := fun d hle hd => by
    by_cases hlt : d < b
    · have hsymbol := hspares.symbol_of_lt hs hlt
      rw [Undeclared, hsymbol] at hd
      rw [hsymbol]
      exact h.scope? d hle hd
    · obtain ⟨j, hj, hm, -⟩ := hnew d (Nat.le_of_not_lt hlt) hd
      exact ⟨j, hj, .inr hm⟩

theorem of_idle (h : Listed n k m names s) (hs : s.Steady) (hidle : Idle s.token s s') :
    Listed n k m names s' := by
  refine h.of_spares hs.bounds hidle.toSpares fun d hle hd => absurd ?_ hd
  exact hidle.undeclared_of (hs.undeclared_of_le hle)

/-- Two parts of a source, one after the other. -/
theorem append {m' : Nat} (h : Listed n k m names s) (hs : s.Steady) (hle : n ≤ s.token)
    (hspares : Spares s.token s s') (h' : Listed s.token k m' names' s') (hm : m ≤ m') :
    Listed n k m (names ++ names') s' where
  sorted := by
    refine List.pairwise_append.2 ⟨h.sorted, h'.sorted, fun d hd e he => ?_⟩
    have hlt := hs.lt_of_declared ((h.mem d).1 hd).2.declared
    exact Nat.lt_of_lt_of_le hlt ((h'.mem e).1 he).1
  mem := fun d => by
    rw [List.mem_append, h.mem, h'.mem]
    -- the token between the two parts tells which of them a name belongs to
    by_cases hd : d < s.token
    · rw [heads_iff_of_spares hs.bounds hspares hd]
      exact or_iff_left fun hnew => Nat.not_lt_of_le hnew.1 hd
    · have hge := Nat.le_of_not_lt hd
      have hold : ¬s.Heads k d := fun hheads => hd (hs.lt_of_declared hheads.declared)
      rw [iff_false_intro hold, and_false, false_or]
      exact and_congr_left' (iff_of_true hge (Nat.le_trans hle hge))
  scope? := fun d hn hd => by
    by_cases hlt : d < s.token
    · have hsymbol := hspares.symbol_of_lt hs.bounds hlt
      rw [Undeclared, hsymbol] at hd
      rw [hsymbol]
      exact h.scope? d hn hd
    · obtain ⟨j, hj, hopen⟩ := h'.scope? d (Nat.le_of_not_lt hlt) hd
      exact ⟨j, hj, hopen.imp_right (Nat.le_trans hm)⟩

theorem scope?_alter (h : Listed n k m names s) (halters : Alters e s s')
    (hscope : (s'.symbol e).scope? = some k) (hd : n ≤ d) (hdeclared : ¬s'.Undeclared d) :
    ∃ j, (s'.symbol d).scope? = some j ∧ (j = k ∨ m ≤ j) := by
  by_cases hne : d = e
  · rw [hne]
    exact ⟨k, hscope, .inl rfl⟩
  · rw [Undeclared, halters.symbol d hne] at hdeclared
    rw [halters.symbol d hne]
    exact h.scope? d hd hdeclared

section Altering

variable (halters : Alters e s s') (he : (s.symbol e).kind = .name)
  (he' : (s'.symbol e).kind = .name) (hscope : (s'.symbol e).scope? = some k)
include halters he he' hscope

/-- A name changes, which is the name of a struct if and only if it was. -/
theorem alter (h : Listed n k m names s) (hheads : s'.Heads k e ↔ s.Heads k e) :
    Listed n k m names s' where
  sorted := h.sorted
  mem := fun d => by
    rw [h.mem]
    by_cases hne : d = e
    · rw [hne, hheads]
    · rw [heads_iff_of_alters halters he he' hne]
  scope? := fun _ => h.scope?_alter halters hscope

/-- A name is declared as a struct. -/
theorem insert (h : Listed n k m [] s) (hn : n ≤ e) (hheads : s'.Heads k e) :
    Listed n k m [e] s' where
  sorted := List.pairwise_singleton _ _
  mem := fun d => by
    rw [List.mem_singleton]
    by_cases hne : d = e
    · rw [hne]
      exact iff_of_true rfl ⟨hn, hheads⟩
    · rw [heads_iff_of_alters halters he he' hne, ← h.mem]
      exact iff_of_false hne List.not_mem_nil
  scope? := fun _ => h.scope?_alter halters hscope

end Altering

end Listed

end State

end CStruct.Parse
