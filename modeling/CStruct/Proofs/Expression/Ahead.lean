import CStruct.Proofs.Expression.Passing

/-!
# The symbols ahead

`Ahead t operand s ids operand' z` says that the symbols `ids` come next in the state `s` and that
`z` is the state in which they have been passed. A symbol with which an expression can start is met
where an operand is wanted, an operator between two operands elsewhere; `operand` and `operand'` say
which of the two is the case before and after.
-/

namespace CStruct.Parse

open SymbolTable

namespace State

/-- Whether the token is met as a prefix operator. -/
def isPrefixed (operand : Bool) (s : State) : Bool :=
  operand && s.current.role.nud == some .prefixed

/-- Passes the token. A prefix operator is reserved. -/
def pass (t : SymbolTable) (operand : Bool) (s : State) : State :=
  if s.isPrefixed operand then (s.advance t).reserve s.token else s.advance t

end State

open State

/-- The symbols `ids` come next, and have been passed in `z`. -/
inductive Ahead (t : SymbolTable) : Bool → State → List SymbolId → Bool → State → Prop
  | nil {operand : Bool} {s : State} : Ahead t operand s [] operand s
  | cons {operand operand' : Bool} {s z : State} {ids : List SymbolId} :
    Ahead t (!operand || s.isPrefixed operand) (s.pass t operand) ids operand' z →
      Ahead t operand s (s.token :: ids) operand' z

namespace Ahead

variable {t : SymbolTable} {operand operand' : Bool} {s z : State} {id : SymbolId}
  {ids ids' : List SymbolId}

theorem cons_inv (h : Ahead t operand s (id :: ids) operand' z) :
    s.token = id ∧ Ahead t (!operand || s.isPrefixed operand) (s.pass t operand) ids operand' z := by
  cases h with
  | cons h => exact ⟨rfl, h⟩

theorem nil_inv (h : Ahead t operand s [] operand' z) : operand = operand' ∧ s = z := by
  cases h
  exact ⟨rfl, rfl⟩

theorem append {operand₁ : Bool} {s₁ : State} (h : Ahead t operand s ids operand₁ s₁)
    (h' : Ahead t operand₁ s₁ ids' operand' z) : Ahead t operand s (ids ++ ids') operand' z := by
  induction h with
  | nil => exact h'
  | cons _ ih => exact .cons (ih h')

theorem split (h : Ahead t operand s (ids ++ ids') operand' z) :
    ∃ operand₁ s₁, Ahead t operand s ids operand₁ s₁ ∧ Ahead t operand₁ s₁ ids' operand' z := by
  induction ids generalizing operand s with
  | nil => exact ⟨operand, s, .nil, h⟩
  | cons id ids ih =>
    rw [List.cons_append] at h
    obtain ⟨rfl, hrest⟩ := h.cons_inv
    obtain ⟨operand₁, s₁, h₁, h₂⟩ := ih hrest
    exact ⟨operand₁, s₁, .cons h₁, h₂⟩

end Ahead

/-! ## What passing symbols keeps -/

namespace State

variable {t : SymbolTable} {operand : Bool} {s : State}

theorem Ready.not_prefixed_end (h : Ready t s) (ht : t.Stops) (he : s.endSymbol? ≠ none) :
    s.isPrefixed operand = false := by
  have hnud : s.current.role.nud ≠ some .prefixed := by
    rw [h.ended he]
    exact ht.nud
  rw [isPrefixed, beq_eq_false_iff_ne.2 hnud, Bool.and_false]

/-- At the end, nothing is passed. -/
theorem Ready.pass_end (h : Ready t s) (ht : t.Stops) (operand : Bool) (he : s.endSymbol? ≠ none) :
    ∃ cs, s.pass t operand = { s with comments := cs } := by
  rw [State.pass, h.not_prefixed_end ht he, if_neg Bool.false_ne_true]
  obtain ⟨e, hend⟩ := Option.ne_none_iff_exists'.1 he
  obtain ⟨hpending, rfl, -⟩ := h.sound.atEnd e hend
  rw [h.sound.advance_of_end hend, ← hpending]
  exact ⟨_, rfl⟩

theorem Ready.pass (h : Ready t s) (ht : t.Stops) (operand : Bool) :
    Ready t (s.pass t operand) ∧ s.Retains (s.pass t operand) := by
  by_cases he : s.endSymbol? = none
  · have hbehind := behind_advance (t := t) he h.sound.token_lt
    have hplain := h.sound.advance.plain _ (h.sound.plain_token he)
    unfold State.pass
    split
    · exact ⟨(h.advance he).reserve hbehind hplain,
        (retains_advance he).trans (retains_reserve hbehind)⟩
    · exact ⟨h.advance he, retains_advance he⟩
  · obtain ⟨cs, heq⟩ := h.pass_end ht operand he
    have hsound : (s.pass t operand).Sound t := by
      rw [heq]
      exact ⟨h.sound.token_lt, h.sound.atEnd⟩
    rw [heq] at hsound ⊢
    exact ⟨⟨hsound, h.ended, h.named, h.free, h.notUnary, h.notBinary⟩,
      ⟨fun _ hid => ⟨hid.lt, hid.ne⟩, fun _ _ hfree => hfree, Nat.le_refl _, fun _ _ => rfl⟩⟩

/-- The only error that passing a symbol can report is about the symbol that is read. -/
theorem Ready.errors_pass (h : Ready t s) (ht : t.Stops) (operand : Bool) :
    (s.pass t operand).errors = s.errors ++ unknownOperator t (s.pass t operand).current ∧
      ((s.pass t operand).current.role ≠ {} →
        unknownOperator t (s.pass t operand).current = []) := by
  by_cases he : s.endSymbol? = none
  · have hbehind := behind_advance (t := t) he h.sound.token_lt
    unfold State.pass
    split
    · have hcurrent : ((s.advance t).reserve s.token).current = (s.advance t).current := by
        rw [State.current, token_reserve]
        exact symbol_reserve_of_ne hbehind.ne.symm
      rw [errors_reserve, hcurrent]
      exact errors_advance he
    · exact errors_advance he
  · obtain ⟨cs, heq⟩ := h.pass_end ht operand he
    have hknown : unknownOperator t s.current = [] := if_neg fun hkind => by
      rw [(h.sound.current he).kind] at hkind
      cases hkind.1
    rw [heq]
    show s.errors = s.errors ++ unknownOperator t s.current ∧ (_ → unknownOperator t s.current = [])
    rw [hknown, List.append_nil]
    exact ⟨rfl, fun _ => rfl⟩

end State

namespace Ahead

variable {t : SymbolTable} {operand operand' : Bool} {s z : State} {ids : List SymbolId}

theorem ready (h : Ahead t operand s ids operand' z) (ht : t.Stops) (hs : Ready t s) :
    Ready t z ∧ s.Retains z := by
  induction h with
  | nil => exact ⟨hs, .refl _⟩
  | cons _ ih =>
    obtain ⟨hpass, hretains⟩ := hs.pass ht _
    obtain ⟨hz, hretains'⟩ := ih hpass
    exact ⟨hz, hretains.trans hretains'⟩

/-- Passing symbols that can do something reports at most that the one after them is unknown. -/
theorem errors (h : Ahead t operand s ids operand' z) (ht : t.Stops) (hs : Ready t s)
    (hids : ids ≠ []) (hroles : ∀ id ∈ ids, (z.symbol id).role ≠ {}) :
    z.errors = s.errors ++ unknownOperator t z.current := by
  induction ids generalizing operand s with
  | nil => exact absurd rfl hids
  | cons id ids ih =>
    obtain ⟨rfl, hrest⟩ := h.cons_inv
    obtain ⟨herrors, hknown⟩ := hs.errors_pass ht operand
    obtain ⟨hpass, -⟩ := hs.pass ht operand
    cases ids with
    | nil =>
      obtain ⟨-, rfl⟩ := hrest.nil_inv
      exact herrors
    | cons id ids =>
      have htoken := hrest.cons_inv.1
      have hrole : (s.pass t operand).current.role ≠ {} := by
        rw [State.current, ← (hrest.ready ht hpass).2.role _ hpass.sound.token_lt, htoken]
        exact hroles id (List.mem_cons_of_mem _ List.mem_cons_self)
      rw [ih hrest hpass (List.cons_ne_nil _ _) fun i hi => hroles i (List.mem_cons_of_mem _ hi),
        herrors, hknown hrole, List.append_nil]

end Ahead

end CStruct.Parse
