import CStruct.Proofs.Redundant.Sources
import CStruct.Proofs.Redundant.Texts
import Mathlib.Algebra.Order.BigOperators.Group.List

/-!
# The names of structs

A struct of a source without remarks goes by a name that is spelled like one and that is no word of
the table. No typedef name of a struct with a tag takes its place, and `struct` itself is never
declared.
-/

namespace CStruct.Parse

open SymbolTable State

variable {t : SymbolTable} {s s' : State} {id name keyword tag : SymbolId}

namespace State

/-! ## How names are spelled -/

/-- What is a name is spelled like one, and so is what is still to be read. -/
structure Named (s : State) : Prop where
  name : ∀ id < s.symbols.size, (s.symbol id).kind = .name →
    Lexeme.IsSpelled ⟨.name, (s.symbol id).value, {}⟩
  pending : ∀ l ∈ s.pending, l.IsSpelled

/-- What has been read since is among the symbols that were added. -/
theorem Adds.symbol_mem {xs : List Symbol} {ls : List Lexeme} {endSymbol? : Option SymbolId}
    (h : s.Adds s' xs ls endSymbol?) (hlt : id < s'.symbols.size) (hid : ¬id < s.symbols.size) :
    s'.symbol id ∈ xs := by
  have hget := getElem?_symbols hlt
  have hle : s.symbols.toList.length ≤ id := by
    rw [Array.length_toList]
    exact Nat.le_of_not_lt hid
  rw [h.symbols, List.getElem?_append_right hle] at hget
  exact List.mem_of_getElem? hget

namespace Named

theorem of_eq (h : s.Named) (symbols : s'.symbols = s.symbols) (pending : s'.pending = s.pending) :
    s'.Named := by
  refine ⟨fun id => ?_, pending ▸ h.pending⟩
  rw [State.symbol, symbols]
  exact h.name id

/-- Only a name makes a name. -/
theorem name_of_kindOf {kind : LexemeKind} (h : kindOf kind = .name) : kind = .name := by
  cases kind with
  | name => rfl
  | comment => cases h
  | type => cases h
  | number => cases h
  | operator => cases h

theorem advance (h : s.Named) (t : SymbolTable) : (s.advance t).Named := by
  refine ⟨fun id hlt hkind => ?_, fun l hl => h.pending l (pending_advance.subset hl)⟩
  by_cases hid : id < s.symbols.size
  · rw [symbol_advance hid] at hkind ⊢
    exact h.name id hid hkind
  · rcases advance_cases t s with ⟨l, ls, hnext, hadds⟩ | ⟨-, -, hadds⟩ | ⟨-, -, hadds⟩
    · have hspelled := h.pending l ((List.dropWhile_suffix _).subset (hnext ▸ List.mem_cons_self))
      rw [List.mem_singleton.1 (hadds.symbol_mem hlt hid)] at hkind ⊢
      exact hspelled.of_name (name_of_kindOf hkind)
    · rw [List.mem_singleton.1 (hadds.symbol_mem hlt hid)] at hkind
      cases hkind
    · cases hadds.symbol_mem hlt hid

/-- A change to a symbol that makes no name of something else. -/
theorem modifySymbol (h : s.Named) {f : Symbol → Symbol}
    (hkind : (f (s.symbol id)).kind = .name → (s.symbol id).kind = .name)
    (hvalue : (f (s.symbol id)).value = (s.symbol id).value) : (s.modifySymbol id f).Named := by
  refine ⟨fun i hi hname => ?_, h.pending⟩
  have hlt : i < s.symbols.size := Nat.lt_of_lt_of_eq hi Array.size_modify
  by_cases heq : i = id
  · subst heq
    rw [symbol_modifySymbol_self hlt] at hname ⊢
    rw [hvalue]
    exact h.name i hlt (hkind hname)
  · rw [symbol_modifySymbol_of_ne heq] at hname ⊢
    exact h.name i hlt hname

theorem expect (h : s.Named) (t : SymbolTable) (id : String) : (s.expect t id).Named := by
  unfold State.expect
  split
  · exact h.advance t
  · have hreport : (s.reportExpected id).Named := h.of_eq rfl rfl
    exact hreport.advance t

theorem closeScope (h : s.Named) : s.closeScope.Named := by
  unfold State.closeScope
  split
  · exact h
  · exact h.of_eq rfl rfl

theorem modifyDeclaration (h : s.Named) (d : SymbolId) (f : Declaration → Declaration) :
    (s.modifyDeclaration d f).Named :=
  h.modifySymbol (fun hkind => hkind) rfl

theorem reserve (h : s.Named) (keyword : SymbolId) : (s.reserve keyword).Named := by
  rcases reserve_cases s keyword with heq | ⟨ds, -, heq⟩
  · rw [heq]
    exact h
  · have hreport : Named { s with diagnostics := ds } := h.of_eq rfl rfl
    rw [heq]
    have hmark : (State.modifySymbol { s with diagnostics := ds } keyword
        ({ · with reserved := true })).Named := hreport.modifySymbol (fun hkind => hkind) rfl
    exact hmark.of_eq rfl rfl

theorem declare (h : s.Named) (hname : (s.symbol name).kind = .name) (type : SymbolId) :
    (s.declare name type).Named :=
  h.modifySymbol (fun _ => hname) rfl

theorem define (h : s.Named) (hname : (s.symbol name).kind = .name) (type : SymbolId) :
    (s.define name type).Named := by
  obtain ⟨ds, heq⟩ := define_eq s name type
  have hreport : Named { s with diagnostics := ds } := h.of_eq rfl rfl
  rw [heq]
  exact (hreport.declare hname type).of_eq rfl rfl

theorem defineAlias (h : s.Named) (hname : (s.symbol name).kind = .name) (type tag : SymbolId) :
    (s.defineAlias name type tag).Named := by
  obtain ⟨ds, heq⟩ := defineAlias_eq s name type tag
  have hreport : Named { s with diagnostics := ds } := h.of_eq rfl rfl
  have hties := ((hreport.declare hname type).modifyDeclaration name
    ({ · with isAlias := true })).modifyDeclaration tag ({ · with alias? := some name })
  rw [heq]
  dsimp only
  split
  · exact hties
  · exact hties.of_eq rfl rfl

end Named

end State

theorem ExpressionRun.named (h : ExpressionRun t s s') (hs : s.Named) : s'.Named := by
  induction h with
  | refl => exact hs
  | tail _ hstep ih =>
    cases hstep with
    | advance => exact ih.advance t
    | report => exact ih.of_eq rfl rfl
    | reserve => exact ih.reserve _
    | operand => exact ih.modifySymbol nofun rfl
    | operands => exact ih.modifySymbol nofun rfl

theorem Piece.named (h : Piece t s s') (ht : t.Stops) (hs : s.Poised t) (hnamed : s.Named) :
    s'.Named := by
  cases h with
  | advance => exact hnamed.advance t
  | report => exact hnamed.of_eq rfl rfl
  | expression h => exact (steps_expression ht hs h).named hnamed
  | keyword => exact ((hnamed.advance t).reserve s.token).modifySymbol nofun rfl
  | @member _ keyword hname => exact (hnamed.define hname keyword).advance t
  | dimension => exact hnamed.modifyDeclaration _ _
  | forward keyword htag => exact hnamed.define htag.kind keyword
  | typedef keyword body hname =>
    exact ((hnamed.define hname keyword).modifyDeclaration _ _).advance t
  | @aliased _ tag keyword hname => exact (hnamed.defineAlias hname keyword tag).advance t

/-- Whatever is read, names are spelled like names. -/
theorem Course.named (h : Course t s s') (ht : t.Stops) (hs : s.Poised t) (hnamed : s.Named) :
    s'.Named := by
  induction h with
  | refl => exact hnamed
  | piece h hpiece ih => exact hpiece.named ht (h.proceeds ht hs).poised (ih hs hnamed)
  | @block s s₁ s₂ keyword tag? h htag hbody ih ihbody =>
    have hs₁ := (h.proceeds ht hs).poised
    have hnamed₁ := ih hs hnamed
    have hdefine : (tag?.elim s₁ fun tag => s₁.define tag keyword).Named := by
      cases tag? with
      | none => exact hnamed₁
      | some tag => exact hnamed₁.define (htag tag rfl).kind keyword
    have henter : (s₁.enterBody t keyword tag?).Named :=
      (hdefine.expect t openBrace).of_eq rfl rfl
    have hinside := ihbody (hs₁.enterBody keyword fun tag hmem => (htag tag hmem).toPassed).poised
      henter
    have hclose := hinside.closeScope.expect t closeBrace
    unfold State.leaveBody
    cases tag? with
    | none => exact hclose
    | some tag => exact hclose.modifyDeclaration tag _

theorem named_ofSource (source : String) : (State.ofSource source).Named :=
  Named.advance ⟨fun _ hlt => absurd hlt (Nat.not_lt_zero _),
    fun _ => Lexicon.isSpelled_of_mem_lexemes⟩ cStructs

/-- A name that is no type and not `struct` is not in the table. -/
theorem get?_of_isSpelled {n : String} (hn : Lexeme.IsSpelled ⟨.name, n, {}⟩)
    (hnamed : n ∉ Lexicon.typeKeywords) (hne : n ≠ structKeyword) : cStructs.get? n = none :=
  (hn.ordinary rfl fun _ => hnamed).resolve_left hne

/-- However many words there are, some name is none of them. -/
theorem exists_isSpelled_notMem (words : List String) :
    ∃ n, Lexeme.IsSpelled ⟨.name, n, {}⟩ ∧ n ∉ words := by
  -- one that is longer than all of them together
  refine ⟨String.ofList ('z' :: List.replicate (words.map String.length).sum 'z'),
    ⟨'z', _, rfl, by decide, ?_⟩, fun hmem => ?_⟩
  · rw [List.all_replicate]
    simp [Scanner.isNameRest]
  · have hle := List.le_sum_of_mem (List.mem_map_of_mem (f := String.length) hmem)
    rw [String.length_ofList, List.length_cons, List.length_replicate] at hle
    exact Nat.not_succ_le_self _ hle

end CStruct.Parse
