import CStruct.Proofs.Redundant.Readings
import CStruct.Proofs.Declared.Sources
import CStruct.Proofs.Statements.Braces

/-!
# The end of a statement

Where a statement ends outside all structs, the symbol behind it has been read already. If that is
the symbol `k`, then the second reading has read the keyword of what was put in there. But for that
symbol the two readings are where they would be before it, also if the statement has declared a
struct ahead behind it.
-/

namespace CStruct.Parse

open SymbolTable State

variable {k : Nat} {n : String} {s s' s₁ s₁' y y' : State} {x x' : Symbol}
  {id name type keyword tag : SymbolId} {l : Lexeme}

/-- An operand has the role of one. -/
theorem Typical.role_of_nud {x : Symbol} (h : Typical x)
    (hnud : x.role.nud = some .itself) : x.role = .ofDeclared := by
  rcases h.role with hrole | ⟨-, hrole⟩
  · exact hrole
  · rw [hrole] at hnud ⊢
    unfold wordPrototype at hnud ⊢
    cases hget : cStructs.get? x.value with
    | none => decide
    | some p =>
      rw [hget] at hnud
      exact SymbolTable.role_of_get? (R := fun _ role => role.nud = some .itself →
        role = .ofDeclared) (by decide) hget hnud

namespace State

/-! ## Declaring a name before the next symbol is taken -/

theorem ahead_of_pending (h : s₁.pending = s.pending) : s₁.ahead = s.ahead := by
  rw [ahead, h, ahead]

/-- All names have been declared with symbols that have been read. -/
def Typed (s : State) : Prop := ∀ id, ∀ type ∈ (s.symbol id).declaredType?, type < s.symbols.size

theorem Consistent.typed (h : s.Consistent fun _ => False) : s.Typed := by
  intro id type htype
  have hdeclared : ¬s.Undeclared id := by
    intro hnone
    rw [Symbol.declaredType?, show (s.symbol id).declaration? = none from hnone] at htype
    cases htype
  obtain ⟨_, _, x, hx⟩ := (h.made hdeclared).isDeclared
  rw [hx.declaredType?_eq] at htype
  cases htype
  refine Nat.lt_trans hx.lt (lt_of_isDeclaration hx.isDeclaration)

/-- All that names stand for has been read. -/
def Bounded (s : State) : Prop :=
  ∀ c name id, (s.scopeAt c).get? name = some id → id < s.symbols.size

namespace Takes

theorem modifySymbol (h : s.Takes s₁ x) (hid : id < s.symbols.size) (f : Symbol → Symbol) :
    (s.modifySymbol id f).Takes (s₁.modifySymbol id f) x where
  symbols := by
    rw [State.modifySymbol, State.modifySymbol, h.symbols]
    refine Array.ext_getElem? fun i => ?_
    rw [Array.getElem?_modify, Array.getElem?_push, Array.getElem?_push, Array.getElem?_modify,
      Array.size_modify]
    by_cases hi : id = i
    · rw [if_pos hi, if_pos hi, if_neg (Nat.ne_of_lt (hi ▸ hid)), if_neg (Nat.ne_of_lt (hi ▸ hid))]
    · rw [if_neg hi, if_neg hi]
  token := by
    rw [State.modifySymbol, State.modifySymbol, Array.size_modify]
    exact h.token
  scopes := h.scopes
  scope := h.scope
  outer := h.outer
  diagnostics := h.diagnostics

theorem bind (h : s.Takes s₁ x) (value : String) (id : SymbolId) :
    (s.bind value id).Takes (s₁.bind value id) x where
  symbols := h.symbols
  token := h.token
  scopes := by rw [State.bind, State.bind, h.scopes, h.scope]
  scope := h.scope
  outer := h.outer
  diagnostics := h.diagnostics

theorem local? (h : s.Takes s₁ x) (value : String) : s₁.local? value = s.local? value := by
  rw [State.local?, h.scopeAt, h.scope, State.local?]

theorem isStructKeyword (h : s.Takes s₁ x) (hid : id < s.symbols.size) :
    s₁.isStructKeyword id = s.isStructKeyword id := by
  rw [State.isStructKeyword, h.symbol_of_lt hid, State.isStructKeyword]

theorem isStruct (h : s.Takes s₁ x) (htyped : s.Typed) (hid : id < s.symbols.size) :
    s₁.isStruct id = s.isStruct id := by
  rw [State.isStruct, State.isStruct, h.symbol_of_lt hid]
  have htype := htyped id
  cases htype? : (s.symbol id).declaredType? with
  | none => rfl
  | some type =>
    rw [Option.any_some, Option.any_some, h.isStructKeyword (htype type htype?)]

theorem completesForward (h : s.Takes s₁ x) (htyped : s.Typed) (hid : id < s.symbols.size)
    (htype : type < s.symbols.size) : s₁.completesForward id type = s.completesForward id type := by
  rw [State.completesForward, State.completesForward, h.isStruct htyped hid, h.symbol_of_lt hid,
    h.isStructKeyword htype]

theorem declare (h : s.Takes s₁ x) (hname : name < s.symbols.size) (type : SymbolId) :
    (s.declare name type).Takes (s₁.declare name type) x := by
  have hmodify := h.modifySymbol hname fun x => { x with
    kind := .name, role := .ofDeclared, reserved := false, scope? := some s₁.scope,
    declaration? := some { declaredType := type } }
  rw [State.declare, ← h.scope]
  exact hmodify

theorem define (h : s.Takes s₁ x) (hbounded : s.Bounded) (htyped : s.Typed)
    (hname : name < s.symbols.size) (htype : type < s.symbols.size) :
    (s.define name type).Takes (s₁.define name type) x := by
  have hvalue := congrArg Symbol.value (h.symbol_of_lt hname)
  have hknown : (s₁.local? (s.symbol name).value).any
      (fun existing => !s₁.completesForward existing type) =
        (s.local? (s.symbol name).value).any fun existing => !s.completesForward existing type := by
    rw [h.local?]
    cases hfound : s.local? (s.symbol name).value with
    | none => rfl
    | some existing =>
      rw [Option.any_some, Option.any_some,
        h.completesForward htyped (hbounded _ _ _ hfound) htype]
  have hwarn : (s.warnDefined name).Takes (s₁.warnDefined name) x := by
    refine ⟨h.symbols, h.token, h.scopes, h.scope, h.outer, ?_⟩
    rw [warnDefined, warnDefined, report, report, reportAt, reportAt, h.diagnostics,
      h.symbol_of_lt hname]
  unfold State.define
  dsimp only
  rw [hvalue, hknown]
  split
  · exact (hwarn.declare hname type).bind _ name
  · exact (h.declare hname type).bind _ name

/-- It makes no difference whether a struct is declared ahead before the next symbol is taken. -/
theorem forwardDeclaration (h : s.Takes s₁ x) (hbounded : s.Bounded) (htyped : s.Typed)
    (htag : tag < s.symbols.size) (htype : keyword < s.symbols.size) :
    (Parse.forwardDeclaration keyword (some tag) s).2.Takes
      (Parse.forwardDeclaration keyword (some tag) s₁).2 x := by
  have hdeclares : s₁.declaresStruct tag = s.declaresStruct tag := by
    rw [declaresStruct_eq, declaresStruct_eq, h.symbol_of_lt htag, h.local?]
    cases hfound : s.local? (s.symbol tag).value with
    | none => rfl
    | some existing => exact h.isStruct htyped (hbounded _ _ _ hfound)
  unfold Parse.forwardDeclaration
  dsimp only
  rw [hdeclares]
  split
  · exact h
  · exact h.define hbounded htyped htag htype

end Takes

/-! ## What the next symbol is -/

/-- What goes on with a source behind a statement, or ends it. -/
def GoesOn (s : State) : Prop :=
  s.current.role.std = some .struct ∨ s.current.role.nud = some .itself ∨ s.endSymbol? ≠ none

/-- What is next in the state `y` is the symbol that has been taken in the state `s`. -/
inductive Next (y s : State) (x : Symbol) : Prop
  | lexeme {l : Lexeme} {ls : List Lexeme} (hahead : y.ahead = l :: ls) (hrest : s.ahead = ls)
    (hvalue : x.value = l.text) (hkind : x.kind = kindOf l.kind)
    (hprototype : (y.prototype? cStructs l).map (fun p => (p.id, p.role)) = some (x.id, x.role))
    (hend : s.endSymbol? = none)
  | ended (hahead : y.ahead = []) (hrest : s.ahead = []) (hvalue : x.value = endId)
    (hkind : x.kind = .endOfInput) (hprototype : x.toPrototype = cStructs.prototype endId)
    (hend : s.endSymbol? = some y.symbols.size)

/-- The keyword `struct`, where nothing has been declared under its spelling. -/
def structSymbol : Symbol where
  id := structKeyword
  role := { std := some .struct }
  value := structKeyword
  kind := .name

/-- The symbol behind a statement has been taken in both readings, and it is the first one that was
put in. Before that, the second reading tracked the first. -/
structure Crosses (k : Nat) (n : String) (y y' : State) (x x' : Symbol) (s s' : State) : Prop where
  tracks : Tracks k n y y'
  scope : y.scope = 0
  size : y.symbols.size = k
  size' : y'.symbols.size = k
  ended : y.endSymbol? = none
  takes : y.Takes s x
  takes' : y'.Takes s' x'
  typical : Typical x
  undeclared : x.declaration? = none
  next : Next y s x
  similar : Similar structSymbol x'
  undeclared' : x'.declaration? = none
  ahead' : s'.ahead = ⟨.name, n, {}⟩ :: ⟨.operator, ";", {}⟩ :: y.ahead
  ended' : s'.endSymbol? = none

/-- The next symbol is taken in both readings. -/
theorem Tracks.crosses (h : Tracks k n y y') (hscope : y.scope = 0)
    (hsize : y.symbols.size = k) (hsize' : y'.symbols.size = k)
    (hclean : (y.advance cStructs).Clean) :
    ∃ x x', Crosses k n y y' x x' (y.advance cStructs) (y'.advance cStructs) := by
  cases h.phase with
  | after _ hput => exact absurd hput (by omega)
  | @before a c hahead hahead' hk _ hend hend' =>
    obtain rfl : a = [] := List.eq_nil_of_length_eq_zero (by omega)
    rw [List.nil_append] at hahead hahead'
    -- the keyword has its own prototype in the second reading
    have hkeyword : (y'.resolve cStructs structKeyword).id = structKeyword ∧
        (y'.resolve cStructs structKeyword).role = { std := some .struct } := by
      rw [resolve_eq_meaning, h.scope, h.outer, hscope, h.outer_eq_nil hscope]
      exact meaning_structKeyword h.keywords.right
    obtain ⟨l', hl', htakes', hrest', hends'⟩ := takes_lexeme (t := cStructs)
      (p := y'.resolve cStructs structKeyword) hahead' rfl
    have hx' : Similar structSymbol (y'.madeOf (y'.resolve cStructs structKeyword) l') :=
      ⟨hkeyword.1, hkeyword.2, (congrArg Lexeme.text hl' :),
        congrArg kindOf (congrArg Lexeme.kind hl' :)⟩
    rw [← hahead] at hrest'
    cases c with
    | nil =>
      obtain ⟨htakes, hrest, hends⟩ := takes_end (t := cStructs) hahead hend
      exact ⟨_, _,
        { tracks := h
          scope := hscope
          size := hsize
          size' := hsize'
          ended := hend
          takes := htakes
          takes' := htakes'
          typical := Sensible.typical_end y
          undeclared := rfl
          next := .ended hahead hrest rfl rfl rfl hends
          similar := hx'
          undeclared' := rfl
          ahead' := hrest'
          ended' := hends'.trans hend' }⟩
    | cons l ls =>
      cases hp : y.prototype? cStructs l with
      | none => exact absurd hclean (not_clean_of_unknown hahead hp)
      | some p =>
        obtain ⟨l₀, rfl, htakes, hrest, hends⟩ := takes_lexeme hahead hp
        exact ⟨_, _,
          { tracks := h
            scope := hscope
            size := hsize
            size' := hsize'
            ended := hend
            takes := htakes
            takes' := htakes'
            typical := h.sensible.typical_madeOf (l := l₀) hp
            undeclared := rfl
            next := .lexeme hahead hrest rfl rfl (by rw [hp]; rfl) (hends.trans hend)
            similar := hx'
            undeclared' := rfl
            ahead' := hrest'
            ended' := hends'.trans hend' }⟩

/-! ## Declaring a struct ahead -/

/-- What words mean in the outermost scope once a name has been defined there. -/
theorem meaning_define (hscope : s.scope = 0) (hlt : s.scope < s.scopes.size)
    (hname : name < s.symbols.size) (hloose : s.Loose name) (hclean : (s.define name type).Clean)
    (text : String) : (s.define name type).meaning [0] text =
      if text = (s.symbol name).value then { id := (s.symbol name).id, role := .ofDeclared }
      else s.meaning [0] text := by
  rw [(define_of_clean hclean).2]
  have hentry := get?_bind_root (s := s.declare name type) hlt hscope name (s.symbol name).value
    text
  split
  · rename_i heq
    rw [if_pos heq] at hentry
    rw [meaning_cons_of_some hentry]
    show ((s.declare name type).symbol name).toPrototype = _
    rw [symbol_declare hname]
    rfl
  · rename_i hne
    rw [if_neg hne] at hentry
    cases hfound : (s.scopeAt 0).get? text with
    | none => rw [meaning_cons_of_none (hentry.trans hfound), meaning_cons_of_none hfound]; rfl
    | some id =>
      rw [meaning_cons_of_some (hentry.trans hfound), meaning_cons_of_some hfound]
      show ((s.declare name type).symbol id).toPrototype = _
      rw [declare, symbol_modifySymbol_of_ne]
      rintro rfl
      exact hloose.unbound 0 text hfound

/-- What goes on with a source is the same symbol, whether a struct has been declared ahead under
its spelling or not. -/
theorem prototype?_define (h : Tracks k n s s') (hscope : s.scope = 0) (hname : Spare k s s' name)
    (hkind : (s.symbol name).kind = .name) (hroot : s.AtRoot type)
    (hclean : (s.define name type).Clean) (hx : Typical x)
    (hgoes : x.role.std = some .struct ∨ x.role.nud = some .itself) (hvalue : x.value = l.text)
    (hprototype : (s.prototype? cStructs l).map (fun p => (p.id, p.role)) = some (x.id, x.role)) :
    ((s.define name type).prototype? cStructs l).map (fun p => (p.id, p.role)) =
      some (x.id, x.role) := by
  have houter := h.outer_eq_nil hscope
  have hresolve : s.resolve cStructs l.text = s.meaning [0] l.text := by
    rw [resolve_eq_meaning, hscope, houter]
  have hresolve' : (s.define name type).resolve cStructs l.text =
      (s.define name type).meaning [0] l.text := by
    rw [resolve_eq_meaning, (scope_define s name type).1, (scope_define s name type).2.1, hscope,
      houter]
  rw [meaning_define hscope h.scope_lt hname.lt hname.left hclean] at hresolve'
  by_cases heq : l.text = (s.symbol name).value
  · rw [if_pos heq] at hresolve'
    have htypical := h.sensible.typical name hname.lt
    have hid := htypical.id (by rw [hkind]; exact SymbolKind.noConfusion)
    -- it is no keyword, so it is an operand
    have hrole : x.role = .ofDeclared := by
      rcases hgoes with hstd | hnud
      · obtain ⟨p, hp, -, hrole, -⟩ := hx.table_of_std hstd
        have hstruct : x.value = structKeyword := eq_struct_of_get? hp (hrole ▸ hstd)
        exact absurd (heq.symm.trans (hvalue.symm.trans hstruct))
          (h.value_ne_struct hroot hscope (define_of_clean hclean).1)
      · exact hx.role_of_nud hnud
    have hword (hl : s.prototype? cStructs l = some (s.resolve cStructs l.text)) :
        ((s.define name type).prototype? cStructs l).map (fun p => (p.id, p.role)) =
          some (x.id, x.role) := by
      rw [← hprototype]
      rw [hl, Option.map_some, Option.some_inj, Prod.mk.injEq, hrole] at hprototype
      refine prototype?_congr ?_ ?_
      · rw [hresolve', resolve_eq_meaning, (h.sensible.meaning _ _).1, hid, heq]
      · rw [hresolve', hprototype.2]
    unfold State.prototype? at hword hprototype ⊢
    cases hl : l.kind with
    | name => rw [hl] at hword; exact hword rfl
    | type => rw [hl] at hword; exact hword rfl
    | number | operator | comment => rw [hl] at hprototype; exact hprototype
  · rw [if_neg heq, ← hresolve] at hresolve'
    rw [← hprototype]
    exact prototype?_congr (congrArg Prototype.id hresolve') (congrArg Prototype.role hresolve')

theorem pending_forwardDeclaration (s : State) (keyword tag : SymbolId) :
    (forwardDeclaration keyword (some tag) s).2.pending = s.pending := by
  unfold forwardDeclaration
  dsimp only
  split
  · rfl
  · obtain ⟨ds, heq⟩ := define_eq s tag keyword
    dsimp only
    rw [heq]
    rfl

theorem ahead_forwardDeclaration (s : State) (keyword tag : SymbolId) :
    (forwardDeclaration keyword (some tag) s).2.ahead = s.ahead :=
  ahead_of_pending (pending_forwardDeclaration s keyword tag)

theorem endSymbol?_forwardDeclaration (s : State) (keyword tag : SymbolId) :
    (forwardDeclaration keyword (some tag) s).2.endSymbol? = s.endSymbol? :=
  (Aside.forwardDeclaration s keyword tag).endSymbol?

/-- What is next is the same symbol behind a struct that has been declared ahead. -/
theorem Crosses.next_forwardDeclaration (h : Crosses k n y y' x x' s s') (htag : Spare k y y' tag)
    (hkind : (y.symbol tag).kind = .name) (hroot : y.AtRoot keyword)
    (hgoes : x.role.std = some .struct ∨ x.role.nud = some .itself ∨ s.endSymbol? ≠ none)
    (hclean : (forwardDeclaration keyword (some tag) y).2.Clean) :
    Next (forwardDeclaration keyword (some tag) y).2 (forwardDeclaration keyword (some tag) s).2
      x := by
  cases h.next with
  | ended hnext hrest hvalue hkindOf hprototype hends =>
    exact .ended ((ahead_forwardDeclaration _ _ _).trans hnext)
      ((ahead_forwardDeclaration _ _ _).trans hrest) hvalue hkindOf hprototype
      (by rw [endSymbol?_forwardDeclaration, hends, (Aside.forwardDeclaration y keyword tag).size])
  | @lexeme l ls hnext hrest hvalue hkindOf hprototype hends =>
    refine .lexeme ((ahead_forwardDeclaration _ _ _).trans hnext)
      ((ahead_forwardDeclaration _ _ _).trans hrest) hvalue hkindOf ?_
      ((endSymbol?_forwardDeclaration _ _ _).trans hends)
    have hgoes : x.role.std = some .struct ∨ x.role.nud = some .itself := by
      rcases hgoes with hstd | hnud | hne
      · exact .inl hstd
      · exact .inr hnud
      · exact absurd hends hne
    unfold Parse.forwardDeclaration at hclean ⊢
    dsimp only at hclean ⊢
    split
    · exact hprototype
    · rename_i hnew
      rw [if_neg hnew] at hclean
      exact prototype?_define h.tracks h.scope htag hkind hroot hclean h.typical hgoes hvalue
        hprototype

/-- A struct is declared ahead in both readings before the next symbol is taken. -/
theorem Crosses.forwardDeclaration (hget : cStructs.get? n = none)
    (h : Crosses k n y y' x x' s s') (htag : Spare k y y' tag)
    (hkind : (y.symbol tag).kind = .name) (hroot : y.AtRoot keyword) (htyped : y.Typed)
    (htyped' : y'.Typed) (hgoes : x.role.std = some .struct ∨ x.role.nud = some .itself ∨
      s.endSymbol? ≠ none)
    (hclean : (forwardDeclaration keyword (some tag) s).2.Clean) :
    ∃ z z', Crosses k n z z' x x' (Parse.forwardDeclaration keyword (some tag) s).2
      (Parse.forwardDeclaration (moved k keyword) (some (moved k tag)) s').2 := by
  have hkeyword := isStructKeyword_lt hroot.struct
  have htakes := h.takes.forwardDeclaration
    (fun c name id hid => (h.tracks.sensible.bound c name id hid).1) htyped htag.lt hkeyword
  have htakes' := h.takes'.forwardDeclaration
    (fun c name id => h.tracks.entry_lt') htyped' (h.tracks.phase.moved_lt htag.lt)
    (h.tracks.phase.moved_lt hkeyword)
  have hcleanBefore : (Parse.forwardDeclaration keyword (some tag) y).2.Clean := by
    rw [Clean, ← htakes.diagnostics]
    exact hclean
  exact ⟨_, _,
    { tracks := h.tracks.forwardDeclaration hget htag hkind (fun _ => hroot) hcleanBefore
      scope := (Trace.of_forwardDeclaration (t := cStructs) _).within.scope.trans h.scope
      size := (Aside.forwardDeclaration y keyword tag).size.trans h.size
      size' := (Aside.forwardDeclaration y' (moved k keyword) (moved k tag)).size.trans h.size'
      ended := (endSymbol?_forwardDeclaration _ _ _).trans h.ended
      takes := htakes
      takes' := htakes'
      typical := h.typical
      undeclared := h.undeclared
      next := h.next_forwardDeclaration htag hkind hroot hgoes hcleanBefore
      similar := h.similar
      undeclared' := h.undeclared'
      ahead' := by rw [ahead_forwardDeclaration, ahead_forwardDeclaration]; exact h.ahead'
      ended' := (endSymbol?_forwardDeclaration _ _ _).trans h.ended' }⟩

/-! ## Statements -/

/-- Between statements outside all structs, all declarations agree. -/
structure Outside (s : State) : Prop extends s.Poised cStructs where
  steady : s.Steady
  consistent : s.Consistent fun _ => False
  simple : s.Simple
  scope : s.scope = 0
  outer : s.outer = []

theorem poised_passHead {t : SymbolTable} (hs : s.Poised t) (hend : s.endSymbol? = none) :
    (s.passHead t).Poised t := by
  have henter := (hs.run (run_enterStatement hs hend).1).poised
  show (State.passTag t (s.enterStatement t)).Poised t
  unfold State.passTag
  split
  · exact henter.advance.poised
  · exact henter

/-- Before the semicolon of a struct, the end of the source is known. -/
theorem poised_endName {t : SymbolTable} (ht : t.Stops) (hs : s.Poised t) {tag? : Option SymbolId}
    (htag : ∀ tag ∈ tag?, s.Passed tag) {fuel : Nat}
    (hread : Parse.bodyReader t fuel (s.enterBody t keyword tag?) = some s₁) (body : ScopeId) :
    (s₁.endName t keyword tag? body).Poised t := by
  have henter := hs.enterBody keyword htag
  have hinside := henter.trans
    ((course_bodyReader ht henter.poised hread).proceeds ht henter.poised)
  have hlt : ∀ tag ∈ tag?, tag < s₁.token := fun tag hmem =>
    Nat.lt_of_lt_of_le (htag tag hmem).lt hinside.token_le
  have hleave := hinside.poised.leaveBody body hlt
  have hname : ∀ tag ∈ tag?, tag < (s₁.leaveBody t tag? body).token := fun tag hmem =>
    Nat.lt_of_lt_of_le (hlt tag hmem) hleave.token_le
  exact ((course_typedefName body hname).proceeds ht hleave.poised).poised

/-- Before a semicolon, the end of the source has not been reached. -/
theorem Sound.not_end_of_semicolon (hs : s.Sound cStructs) (hcheck : s.check ";" = true) :
    s.endSymbol? = none := by
  refine hs.not_end_of_check ends_cStructs ?_
  rw [State.check, beq_iff_eq] at hcheck
  rw [State.check, hcheck]
  decide

section Statements

variable {name? name?' : Option SymbolId} {fuel fuel' : Nat}

/-- Members are remarked outside all structs. -/
theorem Outside.std_ne_member (h : s.Outside)
    (hread : Parse.statement cStructs (Parse.bodyReader cStructs fuel) s = some (name?, s₁))
    (hclean : s₁.Clean) : s.current.role.std ≠ some .member := by
  intro hstd
  rw [Parse.statement, hstd] at hread
  obtain ⟨s₂, h₂, h₃⟩ := Option.map_eq_some_iff.1 hread
  cases h₃
  have hglobal : (s.enterStatement cStructs).isGlobal = true := by
    rw [State.isGlobal, (Trace.of_enterStatement cStructs s).within.outer, h.outer]
    rfl
  unfold Parse.members at h₂
  rw [if_pos hglobal] at h₂
  cases h₂
  exact absurd hclean (not_clean_report _ _ _)

namespace Abreast

/-- The statement is an expression, behind which what was put in comes. -/
theorem crosses_expression (h : Abreast k n s s') (hscope : s.scope = 0)
    (hread : Parse.expressionStatement cStructs s = some s₁)
    (hread' : Parse.expressionStatement cStructs s' = some s₁')
    (hsize : s₁.symbols.size = k + 1) (hclean : s₁.Clean) :
    ∃ y y' x x', Crosses k n y y' x x' s₁ s₁' := by
  obtain ⟨⟨top, s₂⟩, h₂, rfl⟩ := Option.map_eq_some_iff.1 hread
  obtain ⟨⟨top', s₂'⟩, h₂', rfl⟩ := Option.map_eq_some_iff.1 hread'
  dsimp only at hsize hclean ⊢
  cases hexpression : (s₂.symbol top).isExpression with
  | false =>
    rw [hexpression, if_neg Bool.false_ne_true] at hclean
    exact absurd hclean (not_clean_report s₂ top _)
  | true =>
    rw [hexpression, if_pos rfl] at hsize hclean
    obtain ⟨rfl, rfl, hnud, hend⟩ := h.expression_eq h₂ hclean
    rw [(h.sensible.advance hend hclean).2] at hsize
    have hsize₀ : s.symbols.size = k := Nat.succ.inj hsize
    obtain ⟨x, x', hcrosses⟩ := h.toTracks.crosses hscope hsize₀
      ((h.size_eq (Nat.le_of_eq hsize₀)).trans hsize₀) hclean
    have hpower : (s'.advance cStructs).current.role.bindingPower = 0 := by
      rw [hcrosses.takes'.current, hcrosses.similar.role]
      rfl
    obtain ⟨rfl, rfl⟩ := h.expression_eq' h₂' hnud hpower
    have hexpression' : ((s'.advance cStructs).symbol (moved k s.token)).isExpression = true := by
      rw [symbol_advance h.spare.lt] at hexpression
      rw [← h.token, symbol_advance h.token_lt', Symbol.isExpression, h.token,
        (h.similar s.token h.spare.lt).kind]
      exact hexpression
    rw [if_pos rfl, if_pos hexpression']
    exact ⟨_, _, x, x', hcrosses⟩

section Outside

variable (hget : cStructs.get? n = none) (h : Abreast k n s s') (hs : s.Outside)
  (hopen : s.atClose = false)
  (hread : Parse.statement cStructs (Parse.bodyReader cStructs fuel) s = some (name?, s₁))
  (hread' : Parse.statement cStructs (Parse.bodyReader cStructs fuel') s' = some (name?', s₁'))
  (hno : NoAlias n s₁) (hsize : s₁.symbols.size = k + 1) (hclean : s₁.Clean)
include hget h hs hopen hread hread' hsize hclean

/-- The statement declares a struct ahead of its body, and what was put in comes behind it. -/
theorem crosses_ahead (hs' : s'.Outside) (hstd : s.current.role.std = some .struct)
    (hcheck : (s.passHead cStructs).check ";" = true) (hgoes : s₁.GoesOn) :
    ∃ y y' x x', Crosses k n y y' x x' s₁ s₁' := by
  have hstd' : s'.current.role.std = some .struct := h.std_eq.trans hstd
  have hend := h.endSymbol?_eq_none (Bool.or_eq_false_iff.1 hopen).2
  obtain ⟨hhead, -, -⟩ := brings_passHead (t := cStructs) hs.steady hs.consistent hend hstd
  obtain ⟨hhead', -, -⟩ := brings_passHead (t := cStructs) hs'.steady hs'.consistent
    (h.phase.endSymbol?_eq_none hend) hstd'
  have hpoised := poised_passHead hs.toPoised hend
  have hscope : (s.passHead cStructs).scope = 0 := hhead.scope.trans hs.scope
  have hroot : (s.passHead cStructs).AtRoot s.token := h.atRoot_passHead hstd hs.scope
  obtain ⟨-, hs₁⟩ := (struct_cases hstd hread).resolve_right fun hother =>
    Bool.noConfusion (hcheck.symm.trans hother.1)
  -- without a tag there would be an error
  cases htag? : (s.enterStatement cStructs).tag? with
  | none =>
    rw [hs₁, htag?] at hclean
    exact absurd hclean (not_clean_report _ _ _)
  | some tag =>
    have hsizeHead : (s.passHead cStructs).symbols.size = k := by
      rw [hs₁, htag?, (Aside.forwardDeclaration _ _ _).size,
        size_advance (hpoised.sound.not_end_of_semicolon hcheck)] at hsize
      exact Nat.succ.inj hsize
    have hcleanNext : ((s.passHead cStructs).advance cStructs).Clean := by
      rw [hs₁] at hclean
      exact (grows_forwardDeclaration _).clean hclean
    obtain ⟨hpass, htagEq, htag⟩ := h.passHead hget hstd hopen
      (fun _ => Nat.le_of_eq hsizeHead) ((grows_advance _ _).clean hcleanNext)
    obtain ⟨hspare, -, hkind⟩ := htag tag htag?
    -- the semicolon is the last that is the same on both sides
    obtain ⟨x, x', hcrosses⟩ := hpass.toTracks.crosses hscope hsizeHead
      ((hpass.size_eq (Nat.le_of_eq hsizeHead)).trans hsizeHead) hcleanNext
    obtain ⟨-, hs₁'⟩ := (struct_cases hstd' hread').resolve_right fun hother =>
      Bool.noConfusion (((hpass.check ";").trans hcheck).symm.trans hother.1)
    rw [htag?] at hs₁
    rw [htagEq, htag?, h.token] at hs₁'
    have hcurrent : s₁.current = x := by
      rw [hs₁, State.current, (Aside.forwardDeclaration _ _ _).token,
        (Aside.forwardDeclaration _ _ _).symbol]
      · exact hcrosses.takes.current
      · rw [hcrosses.takes.token]
        exact Nat.ne_of_gt hspare.lt
    rw [GoesOn, hcurrent, hs₁, (Aside.forwardDeclaration _ _ _).endSymbol?] at hgoes
    rw [hs₁] at hclean
    rw [hs₁, hs₁']
    obtain ⟨z, z', hz⟩ := hcrosses.forwardDeclaration hget hspare hkind hroot
      hhead.consistent.typed hhead'.consistent.typed hgoes hclean
    exact ⟨z, z', x, x', hz⟩

include hno

/-- The statement is a struct with a body, and what was put in comes behind it. -/
theorem crosses_definition (hstd : s.current.role.std = some .struct)
    (hcheck : (s.passHead cStructs).check ";" = false) :
    ∃ y y' x x', Crosses k n y y' x x' s₁ s₁' := by
  have hstd' : s'.current.role.std = some .struct := h.std_eq.trans hstd
  have hend := h.endSymbol?_eq_none (Bool.or_eq_false_iff.1 hopen).2
  obtain ⟨hhead, -, hpassed⟩ := brings_passHead (t := cStructs) hs.steady hs.consistent hend hstd
  have hroot : (s.passHead cStructs).AtRoot s.token := h.atRoot_passHead hstd hs.scope
  obtain ⟨-, s₂, h₂, hs₁⟩ := (struct_cases hstd hread).resolve_left fun hother =>
    Bool.noConfusion (hcheck.symm.trans hother.1)
  obtain ⟨-, hsemicolon, heq⟩ := structEnd_of_clean (hs₁ ▸ hclean)
  have hendName := (poised_endName stops_cStructs (poised_passHead hs.toPoised hend)
    (fun tag hmem => (hpassed tag hmem).toPassed) h₂ _).sound.not_end_of_semicolon hsemicolon
  -- the semicolon is the last symbol that the statement reads
  have hsizeName : (s₂.endName cStructs s.token (s.enterStatement cStructs).tag?
      (s.passHead cStructs).scopes.size).symbols.size = k := by
    rw [hs₁, heq, size_advance hendName] at hsize
    exact Nat.succ.inj hsize
  have htrace := trace_definitionName (s.passHead cStructs).scopes.size h₂
  have hgrows : (s.passHead cStructs).Grows s₁ := by
    rw [hs₁]
    exact ((grows_enterBody _ _ _ _).trans (grows_bodyReader h₂)).trans
      (grows_structEnd _ _ _ _ _)
  obtain ⟨hpass, htagEq, htag⟩ := h.passHead hget hstd hopen
    (fun _ => hsizeName ▸ htrace.spares.size_le) (hgrows.clean hclean)
  obtain ⟨-, s₂', h₂', hs₁'⟩ := (struct_cases hstd' hread').resolve_left fun hother =>
    Bool.noConfusion (((hpass.check ";").trans hcheck).symm.trans hother.1)
  rw [htagEq, h.token] at h₂'
  rw [hs₁] at hclean hno
  obtain ⟨hname, heq', -⟩ := hpass.definitionName hget
    (fun _ _ _ _ hscope h => h.bodyReader hget hscope) htag (fun _ => hroot) h₂ h₂'
    (fun _ => hno) (fun _ => Nat.le_of_eq hsizeName) hclean
  rw [hs₁, hs₁', htagEq, h.token, hpass.scopes, heq, heq']
  have hscope := htrace.within.scope.trans (hhead.scope.trans hs.scope)
  obtain ⟨x, x', hcrosses⟩ := hname.toTracks.crosses hscope hsizeName
    ((hname.size_eq (Nat.le_of_eq hsizeName)).trans hsizeName) (heq ▸ hclean)
  exact ⟨_, _, x, x', hcrosses⟩

/-- Behind any statement outside all structs, what was put in may come. -/
theorem crosses_statement (hs' : s'.Outside) (hgoes : s₁.GoesOn) :
    ∃ y y' x x', Crosses k n y y' x x' s₁ s₁' := by
  have hrole := h.current_similar.role
  cases hstd : s.current.role.std with
  | none =>
    rw [Parse.statement, hstd] at hread
    rw [Parse.statement, hrole, hstd] at hread'
    obtain ⟨s₂, h₂, h₃⟩ := Option.map_eq_some_iff.1 hread
    obtain ⟨s₂', h₂', h₃'⟩ := Option.map_eq_some_iff.1 hread'
    cases h₃
    cases h₃'
    exact h.crosses_expression hs.scope h₂ h₂' hsize hclean
  | some std =>
    cases std with
    | struct =>
      cases hcheck : (s.passHead cStructs).check ";" with
      | true => exact h.crosses_ahead hget hs hopen hread hread' hsize hclean hs' hstd hcheck hgoes
      | false =>
        exact h.crosses_definition hget hs hopen hread hread' hno hsize hclean hstd hcheck
    | member => exact absurd hstd (hs.std_ne_member hread hclean)

end Outside

end Abreast

end Statements

end State

end CStruct.Parse
