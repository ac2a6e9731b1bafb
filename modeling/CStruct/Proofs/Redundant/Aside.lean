import CStruct.Proofs.Redundant.Steps

/-!
# What naming leaves alone

To give a name a meaning changes that name and the open scope, and puts nothing before the token. So
two readings that were abreast still are, and symbols that were loose in both still are.
-/

namespace CStruct.Parse.State

open SymbolTable

variable {k : Nat} {n : String} {s s' s₁ s₁' s₂ : State} {P P' : SymbolId → Prop}
  {id name type : SymbolId}

/-- A change to the symbols of `P` and to what stands for them. -/
structure Aside (P : SymbolId → Prop) (s s₁ : State) : Prop where
  token : s₁.token = s.token
  endSymbol? : s₁.endSymbol? = s.endSymbol?
  size : s₁.symbols.size = s.symbols.size
  symbol : ∀ i, ¬P i → s₁.symbol i = s.symbol i
  entry : ∀ c name i, (s₁.scopeAt c).get? name = some i → (s.scopeAt c).get? name = some i ∨ P i

namespace Aside

theorem of_eq (token : s₁.token = s.token) (endSymbol? : s₁.endSymbol? = s.endSymbol?)
    (symbols : s₁.symbols = s.symbols) (scopes : s₁.scopes = s.scopes) : Aside P s s₁ where
  token := token
  endSymbol? := endSymbol?
  size := by rw [symbols]
  symbol := fun _ _ => by rw [State.symbol, symbols, State.symbol]
  entry := fun c name i hi => by
    rw [scopeAt, scopes] at hi
    exact .inl hi

theorem refl (s : State) : Aside P s s := of_eq rfl rfl rfl rfl

theorem trans (h : Aside P s s₁) (h' : Aside P s₁ s₂) : Aside P s s₂ where
  token := h'.token.trans h.token
  endSymbol? := h'.endSymbol?.trans h.endSymbol?
  size := h'.size.trans h.size
  symbol := fun i hi => (h'.symbol i hi).trans (h.symbol i hi)
  entry := fun c name i hi => (h'.entry c name i hi).elim (h.entry c name i) .inr

theorem modifySymbol (hid : P id) (f : Symbol → Symbol) : Aside P s (s.modifySymbol id f) where
  token := rfl
  endSymbol? := rfl
  size := Array.size_modify
  symbol := fun _ hi => symbol_modifySymbol_of_ne fun heq => hi (heq ▸ hid)
  entry := fun _ _ _ => .inl

theorem bind (hid : P id) (value : String) : Aside P s (s.bind value id) where
  token := rfl
  endSymbol? := rfl
  size := rfl
  symbol := fun _ _ => rfl
  entry := fun _ _ _ hi => (entry_bind hi).elim (fun hnew => .inr (hnew.1 ▸ hid)) .inl

theorem openScope (s : State) : Aside P s s.openScope where
  token := rfl
  endSymbol? := rfl
  size := rfl
  symbol := fun _ _ => rfl
  entry := fun c name i hi => by
    rw [scopeAt_openScope] at hi
    split at hi
    · cases hi
    · exact .inl hi

theorem closeScope (s : State) : Aside P s s.closeScope := by
  unfold State.closeScope
  split
  · exact .refl s
  · exact .of_eq rfl rfl rfl rfl

theorem declare (hname : P name) (type : SymbolId) : Aside P s (s.declare name type) :=
  modifySymbol hname _

theorem modifyDeclaration (hid : P id) (f : Declaration → Declaration) :
    Aside P s (s.modifyDeclaration id f) :=
  modifySymbol hid _

theorem define (s : State) (name type : SymbolId) : Aside (· = name) s (s.define name type) := by
  obtain ⟨ds, heq⟩ := define_eq s name type
  rw [heq]
  have hreport : Aside (· = name) s { s with diagnostics := ds } := .of_eq rfl rfl rfl rfl
  have hdeclare := hreport.trans (declare (P := (· = name)) rfl type)
  exact hdeclare.trans (bind (P := (· = name)) rfl _)

theorem reserve (s : State) (keyword : SymbolId) : Aside (· = keyword) s (s.reserve keyword) := by
  rcases reserve_cases s keyword with heq | ⟨ds, -, heq⟩
  · rw [heq]
    exact .refl s
  · rw [heq]
    have hreport : Aside (· = keyword) s { s with diagnostics := ds } := .of_eq rfl rfl rfl rfl
    have hmark := hreport.trans
      (modifySymbol (P := (· = keyword)) rfl ({ · with reserved := true }))
    exact hmark.trans (bind (P := (· = keyword)) rfl _)

theorem defineAlias (s : State) (name type struct : SymbolId) :
    Aside (fun i => i = name ∨ i = struct) s (s.defineAlias name type struct) := by
  obtain ⟨ds, heq⟩ := defineAlias_eq s name type struct
  rw [heq]
  have hreport : Aside (fun i => i = name ∨ i = struct) s { s with diagnostics := ds } :=
    .of_eq rfl rfl rfl rfl
  have hdeclared := (hreport.trans (declare (.inl rfl) type)).trans
    (modifyDeclaration (.inl rfl) ({ · with isAlias := true }))
  have htied := hdeclared.trans (modifyDeclaration (.inr rfl) ({ · with alias? := some name }))
  dsimp only
  split
  · exact htied
  · exact htied.trans (bind (P := fun i => i = name ∨ i = struct) (.inl rfl) _)

theorem loose (h : Aside P s s₁) (hid : s.Loose id) (hP : ¬P id) : s₁.Loose id where
  unbound := fun c name hi => (h.entry c name id hi).elim (hid.unbound c name) hP
  undeclared := by
    rw [Undeclared, h.symbol id hP]
    exact hid.undeclared

end Aside

theorem Spare.aside (h : Spare k s s' id) (hs : Aside P s s₁) (hs' : Aside P' s' s₁')
    (hP : ¬P id) (hP' : ¬P' (moved k id)) : Spare k s₁ s₁' id where
  lt := by rw [hs.size]; exact h.lt
  left := hs.loose h.left hP
  right := hs'.loose h.right hP'

/-- Both readings stay abreast when symbols that are not the token change. -/
theorem Abreast.aside (h : Abreast k n s s') (htracks : Tracks k n s₁ s₁') (hs : Aside P s s₁)
    (hs' : Aside P' s' s₁') (hP : ¬P s.token) (hP' : ¬P' (moved k s.token)) :
    Abreast k n s₁ s₁' where
  toTracks := htracks
  token := by rw [hs'.token, hs.token, h.token]
  newest := by rw [hs.token, hs.size, h.newest]
  newest' := by rw [hs'.token, hs'.size, h.newest']
  spare := by
    rw [hs.token]
    exact h.spare.aside hs hs' hP hP'
  ended := by
    rw [current, hs.endSymbol?, hs.token, hs.symbol _ hP]
    exact h.ended

/-- Whether a symbol is the same as another does not change when both are moved. -/
theorem moved_ne {i j : SymbolId} (h : i ≠ j) : moved k i ≠ moved k j :=
  fun heq => h (moved_injective k heq)

/-- What has been passed stays loose. -/
theorem Spare.advance (h : Spare k s s' id) (hphase : Phase k n s s') :
    Spare k (s.advance cStructs) (s'.advance cStructs) id := by
  have hloose {s : State} {id : SymbolId} (hid : id < s.symbols.size) (h : s.Loose id) :
      (s.advance cStructs).Loose id := by
    refine ⟨fun c name hi => ?_, ?_⟩
    · rw [State.scopeAt, scopes_advance] at hi
      exact h.unbound c name hi
    · rw [Undeclared, symbol_advance hid]
      exact h.undeclared
  exact ⟨Nat.lt_of_lt_of_le h.lt size_le_advance, hloose h.lt h.left,
    hloose (hphase.moved_lt h.lt) h.right⟩

end CStruct.Parse.State
