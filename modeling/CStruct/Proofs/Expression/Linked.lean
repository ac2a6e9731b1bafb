import CStruct.Proofs.Expression.Forest
import CStruct.Proofs.Parse.Conservation

/-!
# Reading ties a forest

`Linked` says that the symbols read so far form a forest to which the token does not belong, unless
it is the end. An expression keeps this: `Tied` is the invariant of the part of it that has been
read, whose top symbol is a root over symbols of that expression alone. All else that is read ties
nothing.
-/

namespace CStruct.Parse

open SymbolTable State Relation

variable {t : SymbolTable} {s s' s₀ s₁ s₂ : State} {id name top op right : SymbolId}

/-! ## Steps that tie nothing -/

namespace State

/-- The symbols are tied together in the same way, and the token stays. -/
structure Unties (s s' : State) : Prop where
  ties : SameTies s.symbol s'.symbol
  fits : ∀ p, (s.symbol p).Fits → (s'.symbol p).Fits
  token : s'.token = s.token
  endSymbol : s'.endSymbol? = s.endSymbol?

theorem unties_of_symbols (symbols : s'.symbols = s.symbols) (token : s'.token = s.token)
    (endSymbol : s'.endSymbol? = s.endSymbol?) : s.Unties s' := by
  have hsymbol (p : SymbolId) : s'.symbol p = s.symbol p := by rw [symbol, symbol, symbols]
  refine ⟨⟨fun p => ?_, fun p => ?_⟩, fun p hp => ?_, token, endSymbol⟩
  · rw [hsymbol]
  · rw [hsymbol]
  · rw [hsymbol]
    exact hp

theorem Unties.refl (s : State) : s.Unties s := unties_of_symbols rfl rfl rfl

theorem Unties.trans {s'' : State} (h : s.Unties s') (h' : s'.Unties s'') : s.Unties s'' where
  ties :=
    { first? := fun p => (h'.ties.first? p).trans (h.ties.first? p)
      second? := fun p => (h'.ties.second? p).trans (h.ties.second? p) }
  fits := fun p hp => h'.fits p (h.fits p hp)
  token := h'.token.trans h.token
  endSymbol := h'.endSymbol.trans h.endSymbol

theorem unties_report (s : State) (ds : Diagnostics) : s.Unties { s with diagnostics := ds } :=
  unties_of_symbols rfl rfl rfl

theorem unties_bind (s : State) (name : String) (id : SymbolId) : s.Unties (s.bind name id) :=
  unties_of_symbols rfl rfl rfl

theorem unties_modifySymbol (s : State) (id : SymbolId) {f : Symbol → Symbol}
    (hfirst : ∀ x, (f x).first? = x.first?) (hsecond : ∀ x, (f x).second? = x.second?)
    (hfits : (s.symbol id).Fits → (f (s.symbol id)).Fits) : s.Unties (s.modifySymbol id f) := by
  refine ⟨⟨fun p => ?_, fun p => ?_⟩, fun p hp => ?_, rfl, rfl⟩ <;> rw [symbol_modifySymbol] <;> split
  · exact hfirst _
  · rfl
  · exact hsecond _
  · rfl
  · rename_i h
    rw [h.1] at hp ⊢
    exact hfits hp
  · exact hp

/-- More becomes known of a name, or of a keyword. -/
theorem unties_of_kind (s : State) (id : SymbolId) {f : Symbol → Symbol}
    (hfirst : ∀ x, (f x).first? = x.first?) (hsecond : ∀ x, (f x).second? = x.second?)
    (hkind : ∀ x, (f x).kind = x.kind) : s.Unties (s.modifySymbol id f) :=
  unties_modifySymbol s id hfirst hsecond fun h => h.congr (hkind _) (hfirst _) (hsecond _)

theorem unties_modifyDeclaration (s : State) (id : SymbolId) (f : Declaration → Declaration) :
    s.Unties (s.modifyDeclaration id f) :=
  unties_of_kind s id (fun _ => rfl) (fun _ => rfl) fun _ => rfl

/-- A symbol without operands becomes something else without operands. -/
theorem unties_of_alone (halone : (s.symbol id).Alone) {f : Symbol → Symbol}
    (hfirst : ∀ x, (f x).first? = x.first?) (hsecond : ∀ x, (f x).second? = x.second?)
    (hunary : ∀ x, (f x).kind ≠ .unary) (hbinary : ∀ x, (f x).kind ≠ .binary) :
    s.Unties (s.modifySymbol id f) := by
  refine unties_modifySymbol s id hfirst hsecond fun _ => ?_
  have halone' : (f (s.symbol id)).Alone :=
    ⟨(hfirst _).trans halone.first?, (hsecond _).trans halone.second?⟩
  exact halone'.fits (hunary _) (hbinary _)

theorem unties_declare (h : (s.symbol name).Alone) (type : SymbolId) :
    s.Unties (s.declare name type) :=
  unties_of_alone h (fun _ => rfl) (fun _ => rfl) (fun _ => nofun) fun _ => nofun

theorem unties_define (h : (s.symbol name).Alone) (type : SymbolId) :
    s.Unties (s.define name type) := by
  obtain ⟨ds, heq⟩ := define_eq s name type
  rw [heq]
  have hdeclare := unties_declare (s := { s with diagnostics := ds }) h type
  exact ((unties_report s ds).trans hdeclare).trans (unties_bind _ _ _)

theorem unties_defineAlias (h : (s.symbol name).Alone) (type struct : SymbolId) :
    s.Unties (s.defineAlias name type struct) := by
  obtain ⟨ds, heq⟩ := defineAlias_eq s name type struct
  rw [heq]
  have hdeclare := unties_declare (s := { s with diagnostics := ds }) h type
  have hmarked := hdeclare.trans (unties_modifyDeclaration _ name ({ · with isAlias := true }))
  have htied := hmarked.trans (unties_modifyDeclaration _ struct ({ · with alias? := some name }))
  have hall := (unties_report s ds).trans htied
  dsimp only
  split
  · exact hall
  · exact hall.trans (unties_bind _ _ _)

theorem unties_reserve (s : State) (keyword : SymbolId) : s.Unties (s.reserve keyword) := by
  rcases reserve_cases s keyword with heq | ⟨ds, -, heq⟩
  · rw [heq]
    exact .refl s
  · rw [heq]
    have hmark := unties_of_kind { s with diagnostics := ds } keyword
      (f := ({ · with reserved := true })) (fun _ => rfl) (fun _ => rfl) fun _ => rfl
    exact ((unties_report s ds).trans hmark).trans (unties_bind _ _ _)

theorem unties_closeScope (s : State) : s.Unties s.closeScope := by
  unfold State.closeScope
  split
  · exact .refl s
  · exact unties_of_symbols rfl rfl rfl

/-- What has just been read has no operands. -/
theorem ties_advance (t : SymbolTable) (s : State) :
    SameTies s.symbol (s.advance t).symbol ∧
      ∀ p, (s.symbol p).Fits → ((s.advance t).symbol p).Fits := by
  have hnew (p : SymbolId) (hp : ¬p < s.symbols.size) :
      ((s.advance t).symbol p).Alone ∧ ((s.advance t).symbol p).Fits := by
    suffices ((s.advance t).symbol p).Alone ∧ ((s.advance t).symbol p).kind ≠ .unary ∧
        ((s.advance t).symbol p).kind ≠ .binary from ⟨this.1, this.1.fits this.2.1 this.2.2⟩
    rcases symbol_advance_cases t s p with h | h | ⟨l, h⟩ | h
    · rw [h, symbol_of_size_le (Nat.le_of_not_lt hp)]
      exact ⟨⟨rfl, rfl⟩, nofun, nofun⟩
    · rw [h]
      exact ⟨⟨rfl, rfl⟩, nofun, nofun⟩
    · rw [h]
      exact ⟨⟨rfl, rfl⟩, kindOf_ne l.kind⟩
    · rw [h]
      exact ⟨⟨rfl, rfl⟩, nofun, nofun⟩
  refine ⟨⟨fun p => ?_, fun p => ?_⟩, fun p hfits => ?_⟩ <;>
    by_cases hp : p < s.symbols.size
  · rw [symbol_advance hp]
  · rw [(hnew p hp).1.first?, symbol_of_size_le (Nat.le_of_not_lt hp)]
    rfl
  · rw [symbol_advance hp]
  · rw [(hnew p hp).1.second?, symbol_of_size_le (Nat.le_of_not_lt hp)]
    rfl
  · rw [symbol_advance hp]
    exact hfits
  · exact (hnew p hp).2

/-! ## What has been read is a forest -/

/-- The symbols form a forest. Operators stand before the token, and the token is not yet an
operand, unless it is the end. -/
structure Linked (s : State) : Prop where
  forest : Forest s.symbol
  lt : ∀ p x, HasOperand s.symbol p x → p < s.token
  le : ∀ p x, HasOperand s.symbol p x → x ≤ s.token
  fresh : s.endSymbol? = none → IsRoot s.symbol s.token

namespace Linked

theorem alone_of_le (h : s.Linked) (hid : s.token ≤ id) : (s.symbol id).Alone := by
  constructor
  · by_contra hne
    obtain ⟨x, hx⟩ := Option.ne_none_iff_exists'.1 hne
    exact Nat.not_lt_of_le hid (h.lt id x (.inl hx))
  · by_contra hne
    obtain ⟨x, hx⟩ := Option.ne_none_iff_exists'.1 hne
    exact Nat.not_lt_of_le hid (h.lt id x (.inr hx))

theorem alone_token (h : s.Linked) : s.current.Alone := h.alone_of_le (Nat.le_refl _)

theorem alone_of_name (h : s.Linked) (hname : (s.symbol id).kind = .name) :
    (s.symbol id).Alone :=
  (h.forest.fits id).alone (by rw [hname]; nofun) (by rw [hname]; nofun)

theorem of_unties (h : s.Linked) (hunties : s.Unties s') : s'.Linked where
  forest := hunties.ties.forest h.forest fun p => hunties.fits p (h.forest.fits p)
  lt := fun p x hx => by
    rw [hunties.token]
    exact h.lt p x (hunties.ties.hasOperand_iff.1 hx)
  le := fun p x hx => by
    rw [hunties.token]
    exact h.le p x (hunties.ties.hasOperand_iff.1 hx)
  fresh := fun he => by
    rw [hunties.token]
    exact hunties.ties.isRoot_iff.2 (h.fresh (hunties.endSymbol.symm.trans he))

theorem advance (h : s.Linked) (hs : s.Sound t) : (s.advance t).Linked := by
  cases he : s.endSymbol? with
  | none =>
    obtain ⟨hties, hfits⟩ := ties_advance t s
    have htoken := token_advance (t := t) he
    refine ⟨hties.forest h.forest fun p => hfits p (h.forest.fits p), fun p x hx => ?_,
      fun p x hx => ?_, fun _ p hx => ?_⟩
    · rw [htoken]
      exact Nat.lt_trans (h.lt p x (hties.hasOperand_iff.1 hx)) hs.token_lt
    · rw [htoken]
      exact Nat.le_trans (h.le p x (hties.hasOperand_iff.1 hx)) (Nat.le_of_lt hs.token_lt)
    · rw [htoken] at hx
      exact Nat.not_lt_of_le (h.le p _ (hties.hasOperand_iff.1 hx)) hs.token_lt
  | some e =>
    obtain ⟨cs, heq⟩ := advance_of_some (t := t) hs he
    rw [heq]
    exact h.of_unties (unties_of_symbols rfl rfl rfl)

/-- Before the end, the next token is not yet an operand either. -/
theorem root_advance (h : s.Linked) (hs : s.Sound t) (he : s.endSymbol? = none) :
    IsRoot (s.advance t).symbol (s.advance t).token := by
  intro p hx
  rw [token_advance he] at hx
  exact Nat.not_lt_of_le (h.le p _ ((ties_advance t s).1.hasOperand_iff.1 hx)) hs.token_lt

theorem expect (h : s.Linked) (hs : s.Sound t) (name : String) : (s.expect t name).Linked := by
  unfold State.expect
  split
  · exact h.advance hs
  · have hreport : (s.reportExpected name).Linked := h.of_unties (unties_of_symbols rfl rfl rfl)
    exact hreport.advance (hs.reportExpected name).sound

end Linked

/-! ## Parts of an expression -/

/-- Since `s₀`, only what has been read after it has been tied together. -/
structure Reaches (s₀ s : State) : Prop where
  linked : s.Linked
  token_le : s₀.token ≤ s.token
  kept : ∀ i < s₀.token, s.symbol i = s₀.symbol i
  inner : ∀ p x, s₀.token ≤ p → HasOperand s.symbol p x → s₀.token ≤ x

/-- An expression has been read since `s₀`, and `top` is the root that stands for it. -/
structure Tied (s₀ s : State) (top : SymbolId) : Prop extends Reaches s₀ s where
  root : IsRoot s.symbol top
  ge : s₀.token ≤ top
  le : top ≤ s.token
  lt : s.endSymbol? = none → top < s.token

namespace Reaches

theorem start (h : s.Linked) : Reaches s s where
  linked := h
  token_le := Nat.le_refl _
  kept := fun _ _ => rfl
  inner := fun p x hp hx => absurd (h.lt p x hx) (Nat.not_lt_of_le hp)

/-- Nothing that was read before becomes an operand. -/
theorem isRoot (h : Reaches s₀ s) (hid : id < s₀.token) (hroot : IsRoot s₀.symbol id) :
    IsRoot s.symbol id := by
  intro p hx
  by_cases hp : p < s₀.token
  · unfold HasOperand at hx
    rw [h.kept p hp] at hx
    exact hroot p hx
  · exact Nat.not_lt_of_le (h.inner p id (Nat.le_of_not_lt hp) hx) hid

/-- The trees of what was read before stay. -/
theorem inTree (h : Reaches s₀ s) (h₀ : s₀.Linked) (hroot : IsRoot s₀.symbol s₀.token)
    (hid : id < s₀.token) {x : SymbolId} (hx : InTree s.symbol id x) :
    InTree s₀.symbol id x := by
  suffices InTree s₀.symbol id x ∧ x < s₀.token from this.1
  -- the token of `s₀` is no operand there, so the tree does not get past what was read before
  induction hx with
  | refl => exact ⟨.refl, hid⟩
  | @tail y z _ hstep ih =>
    unfold HasOperand at hstep
    rw [h.kept y ih.2] at hstep
    refine ⟨ih.1.tail hstep, Nat.lt_of_le_of_ne (h₀.le y z hstep) ?_⟩
    rintro rfl
    exact hroot y hstep

theorem of_unties (h : Reaches s₀ s) (hunties : s.Unties s')
    (hkept : ∀ i < s₀.token, s'.symbol i = s.symbol i) : Reaches s₀ s' where
  linked := h.linked.of_unties hunties
  token_le := hunties.token ▸ h.token_le
  kept := fun i hi => (hkept i hi).trans (h.kept i hi)
  inner := fun p x hp hx => h.inner p x hp (hunties.ties.hasOperand_iff.1 hx)

/-- The token is passed and stands for itself. -/
theorem leaf (h : Reaches s₀ s) (hs : s.Poised t) (hroot : IsRoot s.symbol s.token) :
    Tied s₀ (s.advance t) s.token := by
  have hties := (ties_advance t s).1
  have hle := hs.advance.token_le
  refine ⟨⟨h.linked.advance hs.sound, Nat.le_trans h.token_le hle, fun i hi => ?_,
    fun p x hp hx => h.inner p x hp (hties.hasOperand_iff.1 hx)⟩, hties.isRoot_iff.2 hroot,
    h.token_le, hle, fun hend => ?_⟩
  · have hlt := Nat.lt_trans (Nat.lt_of_lt_of_le hi h.token_le) hs.sound.token_lt
    rw [symbol_advance hlt, h.kept i hi]
  · cases he : s.endSymbol? with
    | none =>
      rw [token_advance he]
      exact hs.sound.token_lt
    | some e =>
      obtain ⟨cs, heq⟩ := advance_of_some (t := t) hs.sound he
      rw [heq] at hend
      cases he.symm.trans hend

end Reaches

namespace Tied

theorem of_unties (h : Tied s₀ s top) (hunties : s.Unties s')
    (hkept : ∀ i < s₀.token, s'.symbol i = s.symbol i) : Tied s₀ s' top := by
  refine ⟨h.toReaches.of_unties hunties hkept, hunties.ties.isRoot_iff.2 h.root, h.ge, ?_, ?_⟩
  · rw [hunties.token]
    exact h.le
  · rw [hunties.token, hunties.endSymbol]
    exact h.lt

theorem report (h : Tied s₀ s top) (id : SymbolId) (problem : Problem) :
    Tied s₀ (s.report id problem) top :=
  h.of_unties (unties_of_symbols rfl rfl rfl) fun _ _ => rfl

/-- What has been read for the expression stands in it. -/
theorem ge_of_inTree (h : Tied s₀ s top) {x : SymbolId} (hx : InTree s.symbol top x) :
    s₀.token ≤ x := by
  induction hx with
  | refl => exact h.ge
  | tail _ hstep ih => exact h.inner _ _ ih hstep

/-- Before the end, the expression stands before the token. -/
theorem lt_of_inTree (h : Tied s₀ s top) (he : s.endSymbol? = none) {x : SymbolId}
    (hx : InTree s.symbol top x) : x < s.token := by
  cases ReflTransGen.cases_tail hx with
  | inl heq => exact heq ▸ h.lt he
  | inr hstep =>
    obtain ⟨y, -, hstep⟩ := hstep
    refine Nat.lt_of_le_of_ne (h.linked.le y x hstep) ?_
    rintro rfl
    exact h.linked.fresh he y hstep

end Tied

/-! ### Operators -/

/-- What the left operand of an operator is like when the right one is about to be read. -/
structure IsLeft (s₀ s : State) (op l : SymbolId) : Prop where
  root : IsRoot s.symbol l
  ge : s₀.token ≤ l
  lt : ∀ x, InTree s.symbol l x → x < op

/-- The operator `op` of an expression that started in `s₀` has been passed in `s₁`, and its right
operand has been read in `s₂`. A prefix operator has no left operand. -/
structure Joining (s₀ s₁ s₂ : State) (left? : Option SymbolId) (op right : SymbolId) : Prop where
  base : Reaches s₀ s₁
  fresh : IsRoot s₁.symbol s₁.token
  ge : s₀.token ≤ op
  lt : op < s₁.token
  root : IsRoot s₁.symbol op
  left : ∀ l ∈ left?, IsLeft s₀ s₁ op l
  tied : Tied s₁ s₂ right

/-- The operator with its operands. -/
structure Joined (x : Symbol) (left? : Option SymbolId) (right : SymbolId) : Prop where
  fits : x.Fits
  first? : x.first? = some (left?.getD right)
  second? : x.second? = left?.map fun _ => right

/-- The operands are the right one and the left one. -/
theorem Joined.operand_cases {symbol : SymbolId → Symbol} {left? : Option SymbolId}
    (h : Joined (symbol op) left? right) {y : SymbolId} (hy : HasOperand symbol op y) :
    y = right ∨ y ∈ left? := by
  unfold HasOperand at hy
  rw [h.first?, h.second?] at hy
  cases left? with
  | none =>
    rcases hy with hy | hy
    · exact .inl (Option.some.inj hy).symm
    · cases hy
  | some l =>
    rcases hy with hy | hy
    · exact .inr hy
    · exact .inl (Option.some.inj hy).symm

namespace Joining

variable {left? : Option SymbolId} {f : Symbol → Symbol}

section Operands

variable (h : Joining s₀ s₁ s₂ left? op right)
include h

theorem lt_token : op < s₂.token := Nat.lt_of_lt_of_le h.lt h.tied.token_le

theorem lt_of_right {x : SymbolId} (hx : InTree s₂.symbol right x) : op < x :=
  Nat.lt_of_lt_of_le h.lt (h.tied.ge_of_inTree hx)

theorem left_lt {l : SymbolId} (hl : l ∈ left?) : l < op := (h.left l hl).lt l .refl

/-- The left operand has not changed since the operator was passed. -/
theorem lt_of_left {l x : SymbolId} (hl : l ∈ left?) (hx : InTree s₂.symbol l x) : x < op := by
  have hlt := Nat.lt_trans (h.left_lt hl) h.lt
  exact (h.left l hl).lt x (h.tied.inTree h.base.linked h.fresh hlt hx)

theorem isRoot_left {l : SymbolId} (hl : l ∈ left?) : IsRoot s₂.symbol l :=
  h.tied.isRoot (Nat.lt_trans (h.left_lt hl) h.lt) (h.left l hl).root

theorem joins (f : Symbol → Symbol) : Joins op s₂.symbol (s₂.modifySymbol op f).symbol where
  same := fun _ hq => symbol_modifySymbol_of_ne hq
  root := h.tied.isRoot h.lt h.root

end Operands

variable (h : Joining s₀ s₁ s₂ left? op right)
  (hjoined : Joined ((s₂.modifySymbol op f).symbol op) left? right)
include h hjoined

theorem forest : Forest (s₂.modifySymbol op f).symbol := by
  apply (h.joins f).forest h.tied.linked.forest hjoined.fits
  · intro y hy
    rcases hjoined.operand_cases hy with rfl | hl
    · exact h.tied.root
    · exact h.isRoot_left hl
  · intro l r hfirst hsecond x hx
    rw [hjoined.first?] at hfirst
    rw [hjoined.second?] at hsecond
    cases left? with
    | none => cases hsecond
    | some l' =>
      cases hfirst
      exact h.lt_of_left rfl hx
  · intro r hsecond x hx
    rw [hjoined.second?] at hsecond
    cases left? with
    | none => cases hsecond
    | some l =>
      cases hsecond
      exact h.lt_of_right hx
  · intro o hfirst hsecond x hx
    rw [hjoined.first?] at hfirst
    rw [hjoined.second?] at hsecond
    cases left? with
    | none =>
      cases hfirst
      exact h.lt_of_right hx
    | some l => cases hsecond

theorem linked : (s₂.modifySymbol op f).Linked := by
  refine ⟨h.forest hjoined, fun p x hx => ?_, fun p x hx => ?_, fun he => ?_⟩
  · by_cases hp : p = op
    · exact hp ▸ h.lt_token
    · exact h.tied.linked.lt p x (((h.joins f).hasOperand_iff hp).1 hx)
  · by_cases hp : p = op
    · rw [hp] at hx
      rcases hjoined.operand_cases hx with rfl | hl
      · exact h.tied.le
      · exact Nat.le_of_lt (Nat.lt_trans (h.left_lt hl) h.lt_token)
    · exact h.tied.linked.le p x (((h.joins f).hasOperand_iff hp).1 hx)
  · apply (h.joins f).isRoot (h.tied.linked.fresh he)
    intro hx
    rcases hjoined.operand_cases hx with heq | hl
    · exact Nat.ne_of_gt (h.tied.lt he) heq
    · exact Nat.lt_asymm (h.left_lt hl) h.lt_token

theorem reaches : Reaches s₀ (s₂.modifySymbol op f) := by
  refine ⟨h.linked hjoined, Nat.le_trans h.base.token_le h.tied.token_le, fun i hi => ?_,
    fun p x hp hx => ?_⟩
  · have hne : i ≠ op := Nat.ne_of_lt (Nat.lt_of_lt_of_le hi h.ge)
    rw [(h.joins f).same i hne, h.tied.kept i (Nat.lt_of_lt_of_le hi h.base.token_le),
      h.base.kept i hi]
  · by_cases hop : p = op
    · rw [hop] at hx
      rcases hjoined.operand_cases hx with rfl | hl
      · exact Nat.le_trans h.base.token_le h.tied.ge
      · exact (h.left x hl).ge
    · have hx := ((h.joins f).hasOperand_iff hop).1 hx
      by_cases hlt : p < s₁.token
      · -- passed before the right operand was read, and unchanged since
        unfold HasOperand at hx
        rw [h.tied.kept p hlt] at hx
        exact h.base.inner p x hp hx
      · exact Nat.le_trans h.base.token_le (h.tied.inner p x (Nat.le_of_not_lt hlt) hx)

/-- An operator over its operands is an expression. -/
theorem tied_operator : Tied s₀ (s₂.modifySymbol op f) op := by
  refine ⟨h.reaches hjoined, (h.joins f).isRoot (h.joins f).root fun hx => ?_, h.ge,
    Nat.le_of_lt h.lt_token, fun _ => h.lt_token⟩
  rcases hjoined.operand_cases hx with rfl | hl
  · exact Nat.lt_irrefl _ (h.lt_of_right .refl)
  · exact Nat.lt_irrefl _ (h.left_lt hl)

end Joining

end State

end CStruct.Parse
