import CStruct.Parse.Progress
import CStruct.Proofs.Grammar.Basic
import CStruct.Proofs.Parse.Growth
import Mathlib.Data.List.Chain

/-!
# What a state is about to read

`Reads s w` says that the lexemes `w`, comments apart, are still to be dealt with in the state `s`,
the first of them being the token. Names are declared and keywords are used while a source is read,
and both change the scopes. What keeps reading predictable is that neither changes what a spelling
means: a name of a scope stands for a symbol with the role that the table gives to its spelling.
-/

namespace CStruct

open SymbolTable

namespace Lexeme

/-- What is found under a spelling, whatever has been declared. -/
def prototype (l : Lexeme) : Prototype :=
  match l.kind with
  | .name | .type => (cStructs.get? l.text).getD (cStructs.prototype nameId)
  | .number => cStructs.prototype literalId
  | .operator | .comment => cStructs.prototype l.text

def IsWord (l : Lexeme) : Prop := l.kind = .name ∨ l.kind = .type

/-- A lexeme as they come out of a source, but for names that are spelled like a type. -/
def Ordinary (l : Lexeme) : Prop :=
  match l.kind with
  | .name => l.text = Parse.State.structKeyword ∨ cStructs.get? l.text = none
  | .type => ∃ p : PrimitiveType, p.keyword = l.text
  | .number => True
  | .operator => l.text ∈ cOperators
  | .comment => False

theorem Ordinary.cases {l : Lexeme} (h : l.Ordinary) :
    l.IsStructKeyword ∨ (l.IsIdent ∧ cStructs.get? l.text = none) ∨
      (l.kind = .type ∧ ∃ p : PrimitiveType, p.keyword = l.text) ∨ l.kind = .number ∨
        ∃ id ∈ cOperators, l.IsOperator id := by
  unfold Ordinary at h
  split at h
  · rename_i hkind
    by_cases hstruct : l.text = Parse.State.structKeyword
    · exact .inl ⟨hkind, hstruct⟩
    · exact .inr (.inl ⟨⟨hkind, hstruct⟩, h.resolve_left hstruct⟩)
  · rename_i hkind
    exact .inr (.inr (.inl ⟨hkind, h⟩))
  · rename_i hkind
    exact .inr (.inr (.inr (.inl hkind)))
  · rename_i hkind
    exact .inr (.inr (.inr (.inr ⟨l.text, h, hkind, rfl⟩)))
  · cases h

theorem Ordinary.get?_of_ident {l : Lexeme} (h : l.Ordinary) (hl : l.IsIdent) :
    cStructs.get? l.text = none := by
  rw [Ordinary, hl.1] at h
  exact h.resolve_left hl.2

theorem prototype_struct {l : Lexeme} (h : l.IsStructKeyword) :
    l.prototype = { id := Parse.State.structKeyword, role := { std := some .struct } } := by
  rw [prototype, h.1, h.2]
  decide

theorem prototype_ident {l : Lexeme} (h : l.IsIdent) (hget : cStructs.get? l.text = none) :
    l.prototype = { id := nameId, role := .ofDeclared } := by
  rw [prototype, h.1]
  dsimp only
  rw [hget]
  decide

theorem prototype_type {l : Lexeme} (h : l.kind = .type) {p : PrimitiveType}
    (hp : p.keyword = l.text) :
    l.prototype = { id := l.text, role := { std := some .member } } := by
  rw [prototype, h, ← hp]
  cases p <;> decide

theorem prototype_number {l : Lexeme} (h : l.kind = .number) :
    l.prototype = { id := literalId, role := .ofDeclared } := by
  rw [prototype, h]
  show cStructs.prototype literalId = _
  decide

theorem prototype_operator {l : Lexeme} {id : String} (h : l.IsOperator id)
    (hid : id ∈ cOperators) : l.prototype = { id } := by
  have hall : ∀ id ∈ cOperators, cStructs.prototype id = { id } := by decide
  rw [prototype, h.1, h.2]
  exact hall id hid

end Lexeme

namespace Lexeme

-- After these, a name is about to be declared.
def Declares (l : Lexeme) : Prop :=
  l.kind = .type ∨ l.IsOperator "," ∨ l.IsOperator closeBrace ∨ l.IsStructKeyword

instance (l : Lexeme) : Decidable l.Declares := inferInstanceAs (Decidable (_ ∨ _))

end Lexeme

namespace Parse.State

/-! ## Symbols and the lexemes that they were made of -/

/-- A symbol that stands where the lexeme stands and means what the lexeme means. -/
structure Spells (x : Symbol) (l : Lexeme) : Prop where
  value : x.value = l.text
  span : x.span = l.span
  id : x.id = l.prototype.id
  role : x.role = l.prototype.role

/-- The number of a symbol, not the end, that means what the lexeme means. -/
structure Knows (s : State) (id : SymbolId) (l : Lexeme) : Prop where
  plain : s.Plain id
  spells : Spells (s.symbol id) l

-- Every name in a scope stands for a symbol with the meaning that its spelling has.
def Meaningful (s : State) : Prop :=
  ∀ k name id, (s.scopeAt k).get? name = some id →
    ∃ l : Lexeme, l.IsWord ∧ l.text = name ∧ s.Knows id l

/-- Lexemes among which `struct` is nowhere declared as a name. -/
structure Ordinary (w : List Lexeme) : Prop where
  each : ∀ l ∈ w, l.Ordinary
  chain : w.IsChain fun l l' => l.Declares → ¬l'.IsStructKeyword

theorem Ordinary.tail {l : Lexeme} {w : List Lexeme} (h : Ordinary (l :: w)) : Ordinary w :=
  ⟨fun l' hl' => h.each l' (List.mem_cons_of_mem l hl'), h.chain.of_cons⟩

/-- The lexeme, or the end if there is none, that the token was made of. -/
def Faces (x : Symbol) : Option Lexeme → Prop
  | some l => Spells x l ∧ x.kind = kindOf l.kind
  | none => x.id = endId ∧ x.role = {} ∧ x.kind = .endOfInput

/-- The lexemes `w`, comments apart, are still to be dealt with, the token included. -/
structure Reads (s : State) (w : List Lexeme) : Prop where
  sound : s.Sound cStructs
  meaningful : s.Meaningful
  pending : s.pending.filter (fun l => !l.isComment) = w.tail
  ended : s.endSymbol? = none ↔ w ≠ []
  current : Faces s.current w.head?
  ordinary : Ordinary w

/-- What a step keeps that reports no error and opens and closes the same scopes. -/
structure Keeps (s s' : State) : Prop where
  knows : ∀ id l, s.Knows id l → s'.Knows id l
  scope : s'.scope = s.scope
  outer : s'.outer = s.outer
  hasErrors : s'.hasErrors = s.hasErrors

theorem Keeps.refl (s : State) : s.Keeps s := ⟨fun _ _ h => h, rfl, rfl, rfl⟩

theorem Keeps.trans {s s' s'' : State} (h : s.Keeps s') (h' : s'.Keeps s'') : s.Keeps s'' :=
  ⟨fun id l hl => h'.knows id l (h.knows id l hl), h'.scope.trans h.scope, h'.outer.trans h.outer,
    h'.hasErrors.trans h.hasErrors⟩

/-- A step without an error after which the lexemes `w` are left. -/
structure Passes (s s' : State) (w : List Lexeme) : Prop where
  reads : s'.Reads w
  keeps : s.Keeps s'

theorem Reads.passes {s : State} {w : List Lexeme} (h : s.Reads w) : s.Passes s w :=
  ⟨h, .refl s⟩

theorem Passes.trans {s s' s'' : State} {w w' : List Lexeme} (h : s.Passes s' w)
    (h' : s'.Passes s'' w') : s.Passes s'' w' :=
  ⟨h'.reads, h.keeps.trans h'.keeps⟩

/-! ## Reading the next symbol -/

theorem filter_eq_of_dropWhile (ls : List Lexeme) :
    ls.filter (fun l => !l.isComment) =
      match ls.dropWhile Lexeme.isComment with
      | [] => []
      | l :: ls => l :: ls.filter fun l => !l.isComment := by
  induction ls with
  | nil => rfl
  | cons l ls ih =>
    rw [List.dropWhile_cons]
    by_cases hl : l.isComment = true
    · rw [if_pos hl, List.filter_cons_of_neg (by simp [hl]), ih]
    · rw [if_neg hl, List.filter_cons_of_pos (by simp [hl])]

/-- What a word means does not depend on what has been declared. -/
theorem resolve_of_meaningful {s : State} (h : s.Meaningful) {l : Lexeme} (hl : l.IsWord) :
    (s.resolve cStructs l.text).id = l.prototype.id ∧
      (s.resolve cStructs l.text).role = l.prototype.role := by
  have hword {l : Lexeme} (hl : l.IsWord) :
      l.prototype = (cStructs.get? l.text).getD (cStructs.prototype nameId) := by
    rcases hl with hl | hl <;> rw [Lexeme.prototype, hl]
  unfold resolve
  split
  · rename_i id hfind
    obtain ⟨k, -, hk⟩ := List.exists_of_findSome?_eq_some hfind
    obtain ⟨l', hl', htext, hknows⟩ := h k l.text id hk
    have hsame : l'.prototype = l.prototype := by rw [hword hl', hword hl, htext]
    rw [← hsame]
    exact ⟨hknows.spells.id, hknows.spells.role⟩
  · rw [hword hl]
    exact ⟨rfl, rfl⟩

theorem prototype?_of_ordinary {s : State} (h : s.Meaningful) {l : Lexeme} (hl : l.Ordinary) :
    ∃ p, s.prototype? cStructs l = some p ∧ p.id = l.prototype.id ∧ p.role = l.prototype.role := by
  unfold State.prototype?
  unfold Lexeme.Ordinary at hl
  split
  · rename_i hkind
    exact ⟨_, rfl, resolve_of_meaningful h (.inl hkind)⟩
  · rename_i hkind
    exact ⟨_, rfl, resolve_of_meaningful h (.inr hkind)⟩
  · rename_i hkind
    exact ⟨_, rfl, by rw [Lexeme.prototype, hkind], by rw [Lexeme.prototype, hkind]⟩
  · rename_i hkind
    rw [hkind] at hl
    have hall : ∀ id ∈ cOperators, cStructs.get? id = some (cStructs.prototype id) := by decide
    exact ⟨_, hall l.text hl, by rw [Lexeme.prototype, hkind], by rw [Lexeme.prototype, hkind]⟩
  · rename_i hkind
    rw [hkind] at hl
    cases hl

/-- The symbol that a lexeme makes, once its prototype is known. -/
def madeOf (s : State) (p : Prototype) (l : Lexeme) : Symbol :=
  { toPrototype := p
    value := l.text
    kind := kindOf l.kind
    span := l.span
    scope? := if l.kind = .name then some s.scope else none }

-- The state in which the comments that come next have been put aside, and `ls` is left.
def afterComments (s : State) (ls : List Lexeme) : State :=
  { s with
    pending := ls
    comments := s.comments ++ s.pending.takeWhile Lexeme.isComment }

theorem advance_eq_push {t : SymbolTable} {s : State} {l : Lexeme} {ls : List Lexeme}
    (hnext : s.pending.dropWhile Lexeme.isComment = l :: ls) {p : Prototype}
    (hp : s.prototype? t l = some p) :
    s.advance t = (s.afterComments ls).push (s.madeOf p l) := by
  unfold State.advance takeComments
  dsimp only
  rw [hnext]
  unfold State.read
  dsimp only
  split
  · rename_i p' hp'
    cases hp.symm.trans hp'
    rfl
  · rename_i hnone
    cases hp.symm.trans hnone

theorem advance_eq_unknown {t : SymbolTable} {s : State} {l : Lexeme} {ls : List Lexeme}
    (hnext : s.pending.dropWhile Lexeme.isComment = l :: ls) (hp : s.prototype? t l = none) :
    s.advance t = ((s.afterComments ls).reportAt l.span (.unknownOperator l.text)).push
      (s.madeOf { id := l.text } l) := by
  unfold State.advance takeComments
  dsimp only
  rw [hnext]
  unfold State.read
  dsimp only
  split
  · rename_i p hsome
    cases hp.symm.trans hsome
  · rfl

/-- The symbol of the end of the source. -/
def endSymbolOf (t : SymbolTable) (s : State) : Symbol :=
  { toPrototype := t.prototype endId
    value := endId
    kind := .endOfInput
    span := .empty s.endPosition
    scope? := (t.entry endId).scope? }

/-- The end is read again. -/
theorem advance_eq_stay {t : SymbolTable} {s : State} {e : SymbolId} (he : s.endSymbol? = some e)
    (hnext : s.pending.dropWhile Lexeme.isComment = []) :
    s.advance t = { s.afterComments [] with token := e } := by
  unfold State.advance takeComments readEnd afterComments
  dsimp only
  rw [hnext, he]

theorem advance_eq_end {t : SymbolTable} {s : State} (he : s.endSymbol? = none)
    (hnext : s.pending.dropWhile Lexeme.isComment = []) :
    s.advance t = { (s.afterComments []).push (s.endSymbolOf t) with
      endSymbol? := some s.symbols.size } := by
  unfold State.advance takeComments
  dsimp only
  rw [hnext]
  unfold State.readEnd
  dsimp only
  rw [he]
  rfl

theorem symbol_push_of_lt {s : State} {x : Symbol} {id : SymbolId} (h : id < s.symbols.size) :
    (s.push x).symbol id = s.symbol id := by
  show (s.symbols.push x).getD id default = s.symbols.getD id default
  rw [Array.getD_eq_getD_getElem?, Array.getD_eq_getD_getElem?,
    Array.getElem?_push_lt h, Array.getElem?_eq_getElem h]

/-- The symbols that were read before stay. -/
theorem symbol_advance {t : SymbolTable} {s : State} {id : SymbolId} (h : id < s.symbols.size) :
    (s.advance t).symbol id = s.symbol id := by
  cases hnext : s.pending.dropWhile Lexeme.isComment with
  | nil =>
    cases he : s.endSymbol? with
    | none =>
      rw [advance_eq_end he hnext]
      exact symbol_push_of_lt (s := s.afterComments []) h
    | some e =>
      rw [advance_eq_stay he hnext]
      rfl
  | cons l ls =>
    cases hp : s.prototype? t l with
    | some p =>
      rw [advance_eq_push hnext hp]
      exact symbol_push_of_lt (s := s.afterComments ls) h
    | none =>
      rw [advance_eq_unknown hnext hp]
      exact symbol_push_of_lt (s := (s.afterComments ls).reportAt _ _) h

/-- Before the end, each symbol has a number of its own. -/
theorem token_advance {t : SymbolTable} {s : State} (he : s.endSymbol? = none) :
    (s.advance t).token = s.symbols.size := by
  cases hnext : s.pending.dropWhile Lexeme.isComment with
  | nil => rw [advance_eq_end he hnext]; rfl
  | cons l ls =>
    cases hp : s.prototype? t l with
    | some p => rw [advance_eq_push hnext hp]; rfl
    | none => rw [advance_eq_unknown hnext hp]; rfl

theorem Knows.of_symbol_eq {s s' : State} {id : SymbolId} {l : Lexeme} (h : s.Knows id l)
    (hplain : s'.Plain id) (hsymbol : s'.symbol id = s.symbol id) : s'.Knows id l :=
  ⟨hplain, hsymbol ▸ h.spells⟩

theorem Meaningful.of_knows {s s' : State} (h : s.Meaningful) (hscopes : s'.scopes = s.scopes)
    (hknows : ∀ id l, s.Knows id l → s'.Knows id l) : s'.Meaningful := by
  intro k name id hk
  rw [scopeAt, hscopes] at hk
  obtain ⟨l, hl, htext, hs⟩ := h k name id hk
  exact ⟨l, hl, htext, hknows id l hs⟩

/-- Before the end, the next lexeme that is no comment becomes the token. -/
theorem passes_advance_of_none {s : State} (he : s.endSymbol? = none) (hm : s.Meaningful)
    {w : List Lexeme} (hw : s.pending.filter (fun l => !l.isComment) = w) (ho : Ordinary w) :
    s.Passes (s.advance cStructs) w := by
  have hleads := (leads_advance_of_none cStructs he).1
  rw [filter_eq_of_dropWhile] at hw
  -- either the end is made into a symbol, or the lexeme is
  cases hnext : s.pending.dropWhile Lexeme.isComment with
  | nil =>
    rw [hnext] at hw
    subst hw
    have hadvance := advance_eq_end (t := cStructs) he hnext
    have hknows : ∀ id l, s.Knows id l → (s.advance cStructs).Knows id l := by
      intro id l hl
      apply hl.of_symbol_eq (hleads.plain id hl.plain)
      rw [hadvance]
      exact symbol_push_of_lt hl.plain.lt
    have hcurrent : (s.advance cStructs).current = s.endSymbolOf cStructs := by
      rw [hadvance]
      exact symbol_push (s.afterComments []) _
    refine ⟨⟨hleads.sound, hm.of_knows (by rw [hadvance]; rfl) hknows, ?_, ?_, ?_, ho⟩,
      ⟨hknows, ?_, ?_, ?_⟩⟩
    · rw [hadvance]
      rfl
    · rw [hadvance]
      exact ⟨nofun, fun h => absurd rfl h⟩
    · rw [hcurrent]
      refine ⟨IsRegular.cStructs.id endId, ?_, rfl⟩
      show (cStructs.prototype endId).role = {}
      decide
    all_goals rw [hadvance]; rfl
  | cons l ls =>
    rw [hnext] at hw
    subst hw
    obtain ⟨p, hp, hid, hrole⟩ :=
      prototype?_of_ordinary (s := s) hm (ho.each l List.mem_cons_self)
    have hadvance := advance_eq_push hnext hp
    have hknows : ∀ id l, s.Knows id l → (s.advance cStructs).Knows id l := by
      intro id l hl
      apply hl.of_symbol_eq (hleads.plain id hl.plain)
      rw [hadvance]
      exact symbol_push_of_lt hl.plain.lt
    have hcurrent : (s.advance cStructs).current = s.madeOf p l := by
      rw [hadvance]
      exact symbol_push (s.afterComments ls) _
    refine ⟨⟨hleads.sound, hm.of_knows (by rw [hadvance]; rfl) hknows, ?_, ?_, ?_, ho⟩,
      ⟨hknows, ?_, ?_, ?_⟩⟩
    · rw [hadvance]
      rfl
    · rw [hadvance]
      exact ⟨nofun, fun _ => he⟩
    · rw [hcurrent]
      exact ⟨⟨rfl, rfl, hid, hrole⟩, rfl⟩
    all_goals rw [hadvance]; rfl

namespace Reads

variable {s : State} {l : Lexeme} {w : List Lexeme}

theorem advance (h : s.Reads (l :: w)) :
    s.Passes (s.advance cStructs) w :=
  passes_advance_of_none (h.ended.2 (List.cons_ne_nil l w)) h.meaningful h.pending h.ordinary.tail

theorem knows_token (h : s.Reads (l :: w)) : s.Knows s.token l :=
  ⟨h.sound.plain_token (h.ended.2 (List.cons_ne_nil l w)), h.current.1⟩

/-- Once passed, the token is a symbol like any other. -/
theorem passed (h : s.Reads (l :: w)) {id : SymbolId} (hid : id < s.symbols.size) :
    id ≠ (s.advance cStructs).token ∧ (s.advance cStructs).symbol id = s.symbol id := by
  have htoken := token_advance (t := cStructs) (h.ended.2 (List.cons_ne_nil l w))
  exact ⟨htoken ▸ Nat.ne_of_lt hid, symbol_advance hid⟩

/-! ### What the token is -/

theorem check_iff (h : s.Reads w) {id : String} (hid : id ∈ cOperators) :
    s.check id = true ↔ ∃ l, w.head? = some l ∧ l.IsOperator id := by
  have hnot : endId ≠ id ∧ structKeyword ≠ id ∧ nameId ≠ id ∧ literalId ≠ id ∧
      ∀ p : PrimitiveType, p.keyword ≠ id := by
    have hall : ∀ id ∈ cOperators, endId ≠ id ∧ structKeyword ≠ id ∧ nameId ≠ id ∧ literalId ≠ id ∧
        ∀ p ∈ PrimitiveType.all, p.keyword ≠ id := by decide
    obtain ⟨h₁, h₂, h₃, h₄, h₅⟩ := hall id hid
    exact ⟨h₁, h₂, h₃, h₄, fun p => h₅ p p.mem_all⟩
  rw [check, beq_iff_eq]
  cases w with
  | nil =>
    rw [h.current.1]
    exact ⟨fun heq => absurd heq hnot.1, by rintro ⟨l, hl, -⟩; cases hl⟩
  | cons l w =>
    rw [h.current.1.id]
    have hhead : (∃ l', (l :: w).head? = some l' ∧ l'.IsOperator id) ↔ l.IsOperator id := by simp
    rw [hhead]
    -- only operators are spelled like the identifiers that are checked for
    rcases (h.ordinary.each l List.mem_cons_self).cases with
      hl | ⟨hl, hget⟩ | ⟨hl, p, hp⟩ | hl | ⟨id', hid', hl⟩
    · rw [Lexeme.prototype_struct hl]
      refine ⟨fun heq => absurd heq hnot.2.1, fun hop => ?_⟩
      cases hop.1.symm.trans hl.1
    · rw [Lexeme.prototype_ident hl hget]
      refine ⟨fun heq => absurd heq hnot.2.2.1, fun hop => ?_⟩
      cases hop.1.symm.trans hl.1
    · rw [Lexeme.prototype_type hl hp]
      refine ⟨fun heq => absurd (hp.trans heq) (hnot.2.2.2.2 p), fun hop => ?_⟩
      cases hop.1.symm.trans hl
    · rw [Lexeme.prototype_number hl]
      refine ⟨fun heq => absurd heq hnot.2.2.2.1, fun hop => ?_⟩
      cases hop.1.symm.trans hl
    · rw [Lexeme.prototype_operator hl hid']
      exact ⟨fun heq => ⟨hl.1, hl.2.trans heq⟩, fun hop => hl.2.symm.trans hop.2⟩

theorem check_end_iff (h : s.Reads w) : s.check endId = true ↔ w = [] := by
  rw [check, beq_iff_eq]
  cases w with
  | nil => exact ⟨fun _ => rfl, fun _ => h.current.1⟩
  | cons l w =>
    refine ⟨fun heq => ?_, fun hnil => absurd hnil (List.cons_ne_nil l w)⟩
    have hnot : endId ∉ cOperators := by decide
    have hkeyword : ∀ p ∈ PrimitiveType.all, p.keyword ≠ endId := by decide
    rw [h.current.1.id] at heq
    rcases (h.ordinary.each l List.mem_cons_self).cases with
      hl | ⟨hl, hget⟩ | ⟨hl, p, hp⟩ | hl | ⟨id', hid', hl⟩
    · rw [Lexeme.prototype_struct hl] at heq
      exact absurd heq (by decide)
    · rw [Lexeme.prototype_ident hl hget] at heq
      exact absurd heq (by decide)
    · rw [Lexeme.prototype_type hl hp] at heq
      exact absurd (hp.trans heq) (hkeyword p p.mem_all)
    · rw [Lexeme.prototype_number hl] at heq
      exact absurd heq (by decide)
    · rw [Lexeme.prototype_operator hl hid'] at heq
      exact absurd (heq ▸ hid') hnot

theorem atClose_iff (h : s.Reads w) :
    s.atClose = true ↔ w = [] ∨ ∃ l, w.head? = some l ∧ l.IsOperator closeBrace := by
  rw [atClose, Bool.or_eq_true, h.check_iff (by decide), h.check_end_iff, or_comm]

theorem name_iff (h : s.Reads w) :
    s.current.kind = .name ↔ ∃ l, w.head? = some l ∧ l.kind = .name := by
  cases w with
  | nil =>
    rw [h.current.2.2]
    exact ⟨nofun, by rintro ⟨l, hl, -⟩; cases hl⟩
  | cons l w =>
    have hhead : (∃ l', (l :: w).head? = some l' ∧ l'.kind = .name) ↔ l.kind = .name := by simp
    rw [hhead, h.current.2]
    cases l.kind <;> simp [kindOf]

theorem expect (h : s.Reads (l :: w)) {id : String} (hid : id ∈ cOperators)
    (hl : l.IsOperator id) :
    s.Passes (s.expect cStructs id) w := by
  rw [State.expect, if_pos ((h.check_iff hid).2 ⟨l, rfl, hl⟩)]
  exact h.advance

end Reads

theorem hasErrors_report (s : State) (id : SymbolId) {problem : Problem}
    (hproblem : problem.severity = .error) : (s.report id problem).hasErrors = true := by
  rw [hasErrors, Diagnostics.hasErrors, toList_report, List.any_append, List.any_cons]
  have herror : (problem.diagnosticAt (s.symbol id).span).isError = true := by
    rw [Diagnostic.isError, Problem.diagnosticAt, hproblem]
    rfl
  rw [herror, Bool.true_or, Bool.or_true]

/-- What is not there is missed. -/
theorem hasErrors_expect {s : State} {id : String} (h : s.check id = false) :
    (s.expect cStructs id).hasErrors = true := by
  rw [State.expect, if_neg (by rw [h]; exact Bool.false_ne_true)]
  cases hclean : ((s.reportExpected id).advance cStructs).hasErrors with
  | true => rfl
  | false =>
    have hreport : (s.reportExpected id).hasErrors = true := hasErrors_report s s.token rfl
    rw [(grows_advance cStructs _).hasErrors_eq_false hclean] at hreport
    cases hreport

end Parse.State

end CStruct
