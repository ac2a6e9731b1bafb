import CStruct.Proofs.Declared.Idle
import CStruct.Proofs.Parse.Effects

/-!
# How names are declared

A name is declared as a member, ahead of a struct, as the tag or the name of a struct with a body,
or as the typedef name of a struct that has a tag. `Made` says which, with all that is known of the
name then; the tag of a struct and its typedef name know of each other. What has been declared stays
so while other symbols change, because nothing takes a keyword, a typedef name or the tie to one
away.
-/

namespace CStruct.Parse

open SymbolTable State

variable {s s' : State} {n d e : SymbolId} {k : ScopeId} {std : StatementDenotation}
  {x : Declaration} {P : SymbolId → Prop}

namespace State

/-- The symbol has been used as the keyword of a statement. -/
structure IsKeyword (s : State) (id : SymbolId) (std : StatementDenotation) : Prop where
  kind : (s.symbol id).kind = .statement
  std : (s.symbol id).role.std = some std

/-- The symbol is a name of the scope `k` that was declared with a keyword before it. -/
structure IsDeclared (s : State) (d : SymbolId) (k : ScopeId) (std : StatementDenotation)
    (x : Declaration) : Prop where
  kind : (s.symbol d).kind = .name
  scope? : (s.symbol d).scope? = some k
  declaration? : (s.symbol d).declaration? = some x
  lt : x.declaredType < d
  keyword : s.IsKeyword x.declaredType std

/-- The ways to declare a name. A tag stands right behind its keyword, and behind the tag of a
forward declaration stands the semicolon. -/
inductive Made (s : State) (d : SymbolId) : Prop
  | member {k : ScopeId} {type : SymbolId} {length? : Option SymbolId} (hk : k ≠ 0)
    (h : s.IsDeclared d k .member { declaredType := type, dimension? := length? })
  | forward {k : ScopeId} {type : SymbolId}
    (h : s.IsDeclared d k .struct { declaredType := type }) (htag : d = type + 1)
    (hend : (s.symbol (d + 1)).id = ";")
  | tagged {k body : ScopeId} {type : SymbolId} {alias? : Option SymbolId}
    (h : s.IsDeclared d k .struct { declaredType := type, innerScope? := some body, alias? })
    (htag : d = type + 1) (hbody : (s.symbol (d + 1)).id ≠ ";")
    (halias : ∀ b ∈ alias?, s.IsDeclared b k .struct { declaredType := type, isAlias := true })
  | untagged {k body : ScopeId} {type : SymbolId}
    (h : s.IsDeclared d k .struct { declaredType := type, innerScope? := some body })
    (hname : type + 1 < d)
  | aliased {k : ScopeId} {type : SymbolId}
    (h : s.IsDeclared d k .struct { declaredType := type, isAlias := true })
    (htag : (s.symbol (type + 1)).alias? = some d)

/-! ## What stays -/

theorem IsDeclared.declared (h : s.IsDeclared d k std x) : ¬s.Undeclared d := fun hnone =>
  Option.some_ne_none x (h.declaration?.symm.trans hnone)

section Accessors

variable (h : s.IsDeclared d k std x)
include h

theorem IsDeclared.isDeclaration : (s.symbol d).isDeclaration = true := by
  rw [Symbol.isDeclaration, h.kind, h.declaration?]
  rfl

theorem IsDeclared.declaredType?_eq : (s.symbol d).declaredType? = some x.declaredType := by
  rw [Symbol.declaredType?, h.declaration?]
  rfl

theorem IsDeclared.innerScope?_eq : (s.symbol d).innerScope? = x.innerScope? := by
  rw [Symbol.innerScope?, h.declaration?]
  rfl

theorem IsDeclared.dimension?_eq : (s.symbol d).dimension? = x.dimension? := by
  rw [Symbol.dimension?, h.declaration?]
  rfl

theorem IsDeclared.alias?_eq : (s.symbol d).alias? = x.alias? := by
  rw [Symbol.alias?, h.declaration?]
  rfl

theorem IsDeclared.isAlias_eq : (s.symbol d).isAlias = x.isAlias := by
  rw [Symbol.isAlias, h.declaration?]
  rfl

end Accessors

theorem IsDeclared.transfer (h : s.IsDeclared d k std x) (hself : s'.symbol d = s.symbol d)
    (hkeyword : s.IsKeyword x.declaredType std → s'.IsKeyword x.declaredType std) :
    s'.IsDeclared d k std x where
  kind := by rw [hself, h.kind]
  scope? := by rw [hself, h.scope?]
  declaration? := by rw [hself, h.declaration?]
  lt := h.lt
  keyword := hkeyword h.keyword

theorem IsKeyword.of_symbol_eq (h : s.IsKeyword d std) (hself : s'.symbol d = s.symbol d) :
    s'.IsKeyword d std := by
  obtain ⟨hkind, hstd⟩ := h
  rw [← hself] at hkind hstd
  exact ⟨hkind, hstd⟩

/-- What has been declared stays so as long as keywords, typedef names and the ties to them stay. -/
theorem Made.transfer (h : s.Made d) (hself : s'.symbol d = s.symbol d)
    (hid : (s'.symbol (d + 1)).id = (s.symbol (d + 1)).id)
    (hkeyword : ∀ i std, s.IsKeyword i std → s'.IsKeyword i std)
    (halias : ∀ b, (s.symbol b).isAlias = true → s'.symbol b = s.symbol b)
    (htie : ∀ p b, (s.symbol p).alias? = some b → (s'.symbol p).alias? = some b) : s'.Made d := by
  cases h with
  | member hk h => exact .member hk (h.transfer hself (hkeyword _ _))
  | forward h htag hend => exact .forward (h.transfer hself (hkeyword _ _)) htag (hid.trans hend)
  | tagged h htag hbody hnames =>
    refine .tagged (h.transfer hself (hkeyword _ _)) htag (by rw [hid]; exact hbody) fun b hb => ?_
    have hname := hnames b hb
    exact hname.transfer (halias b hname.isAlias_eq) (hkeyword _ _)
  | untagged h hname => exact .untagged (h.transfer hself (hkeyword _ _)) hname
  | aliased h htag => exact .aliased (h.transfer hself (hkeyword _ _)) (htie _ _ htag)

theorem not_undeclared_of_isAlias (h : (s.symbol d).isAlias = true) : ¬s.Undeclared d := by
  intro hnone
  rw [Symbol.isAlias, show (s.symbol d).declaration? = none from hnone] at h
  cases h

theorem not_undeclared_of_alias? (h : (s.symbol d).alias? = some e) : ¬s.Undeclared d := by
  intro hnone
  rw [Symbol.alias?, show (s.symbol d).declaration? = none from hnone] at h
  cases h

/-- Keywords and declared names stand before `n`. -/
structure Bounds (n : SymbolId) (s : State) : Prop where
  le : n ≤ s.symbols.size
  declared : ∀ d, ¬s.Undeclared d → d < n
  keyword : ∀ d std, s.IsKeyword d std → d < n

theorem bounds_size (s : State) : Bounds s.symbols.size s where
  le := Nat.le_refl _
  declared := fun d hd => by
    by_contra hle
    apply hd
    rw [Undeclared, symbol_of_size_le (Nat.le_of_not_lt hle)]
    rfl
  keyword := fun d std hd => by
    by_contra hle
    have hkind := hd.kind
    rw [symbol_of_size_le (Nat.le_of_not_lt hle)] at hkind
    cases hkind

theorem Steady.bounds (h : s.Steady) : Bounds s.token s where
  le := Nat.le_of_lt h.token_lt
  declared := fun _ => h.lt_of_declared
  keyword := fun d std hd => by
    have hlt := (bounds_size s).keyword d std hd
    rw [h.size] at hlt
    refine Nat.lt_of_le_of_ne (Nat.le_of_lt_succ hlt) ?_
    rintro rfl
    exact h.kind hd.kind

section Sparing

variable (hs : Bounds n s) (h : Spares n s s')
include hs h

theorem Spares.symbol_of_lt (hd : d < n) : s'.symbol d = s.symbol d :=
  h.symbol d hd (Nat.lt_of_lt_of_le hd hs.le)

theorem Spares.symbol_of_declared (hd : ¬s.Undeclared d) : s'.symbol d = s.symbol d :=
  h.symbol_of_lt hs (hs.declared d hd)

theorem Spares.isKeyword (hd : s.IsKeyword d std) : s'.IsKeyword d std :=
  hd.of_symbol_eq (h.symbol_of_lt hs (hs.keyword d std hd))

theorem Spares.isDeclared (hd : s.IsDeclared d k std x) : s'.IsDeclared d k std x :=
  hd.transfer (h.symbol_of_declared hs hd.declared) (h.isKeyword hs)

theorem Spares.made (hd : s.Made d) (hdeclared : ¬s.Undeclared d) (hnext : d + 1 < s.symbols.size) :
    s'.Made d := by
  refine hd.transfer (h.symbol_of_declared hs hdeclared) (h.id (d + 1) hnext)
    (fun _ _ => h.isKeyword hs) (fun b hb => h.symbol_of_declared hs (not_undeclared_of_isAlias hb))
    fun p b hp => ?_
  rw [h.symbol_of_declared hs (not_undeclared_of_alias? hp)]
  exact hp

end Sparing

/-! ## Changing one name -/

/-- A name that is neither a typedef name of a struct nor has one. -/
structure Bare (s : State) (d : SymbolId) : Prop where
  kind : (s.symbol d).kind = .name
  isAlias : (s.symbol d).isAlias = false
  alias? : (s.symbol d).alias? = none

theorem bare_of_undeclared (hkind : (s.symbol d).kind = .name) (h : s.Undeclared d) : s.Bare d := by
  have hnone : (s.symbol d).declaration? = none := h
  exact ⟨hkind, by rw [Symbol.isAlias, hnone]; rfl, by rw [Symbol.alias?, hnone]; rfl⟩

theorem IsDeclared.bare (h : s.IsDeclared d k std x) (hisAlias : x.isAlias = false)
    (halias : x.alias? = none) : s.Bare d :=
  ⟨h.kind, h.isAlias_eq.trans hisAlias, h.alias?_eq.trans halias⟩

/-- The two states differ in one symbol at most, and that one keeps its prototype. -/
structure Alters (d : SymbolId) (s s' : State) : Prop where
  symbol : ∀ i ≠ d, s'.symbol i = s.symbol i
  id : (s'.symbol d).id = (s.symbol d).id

theorem alters_modifySymbol (s : State) (d : SymbolId) {f : Symbol → Symbol}
    (hf : ∀ x, (f x).id = x.id) : Alters d s (s.modifySymbol d f) where
  symbol := fun _ hne => symbol_modifySymbol_of_ne hne
  id := by
    rw [Parse.symbol_modifySymbol]
    split
    · exact hf _
    · rfl

theorem alters_declare (s : State) (d type : SymbolId) : Alters d s (s.declare d type) :=
  alters_modifySymbol s d fun _ => rfl

theorem alters_modifyDeclaration (s : State) (d : SymbolId) (f : Declaration → Declaration) :
    Alters d s (s.modifyDeclaration d f) :=
  alters_modifySymbol s d fun _ => rfl

theorem Alters.trans {s'' : State} (h : Alters d s s') (h' : Alters d s' s'') : Alters d s s'' where
  symbol := fun i hne => (h'.symbol i hne).trans (h.symbol i hne)
  id := h'.id.trans h.id

theorem Alters.symm (h : Alters d s s') : Alters d s' s where
  symbol := fun i hne => (h.symbol i hne).symm
  id := h.id.symm

/-- A name is no keyword, so that changing it takes no keyword away. -/
theorem Alters.isKeyword (h : Alters e s s') (he : (s.symbol e).kind = .name)
    (hd : s.IsKeyword d std) : s'.IsKeyword d std := by
  have hne : d ≠ e := by
    rintro rfl
    exact absurd (hd.kind.symm.trans he) nofun
  exact hd.of_symbol_eq (h.symbol d hne)

theorem Alters.isDeclared (h : Alters e s s') (he : (s.symbol e).kind = .name)
    (hd : s.IsDeclared d k std x) (hne : d ≠ e) : s'.IsDeclared d k std x :=
  hd.transfer (h.symbol d hne) (h.isKeyword he)

theorem Alters.made (h : Alters e s s') (he : s.Bare e) (hd : s.Made d) (hne : d ≠ e) :
    s'.Made d := by
  refine hd.transfer (h.symbol d hne) ?_ (fun _ _ => h.isKeyword he.kind) (fun b hb => ?_)
    fun p b hp => ?_
  · by_cases hsucc : d + 1 = e
    · rw [hsucc]
      exact h.id
    · rw [h.symbol _ hsucc]
  · refine h.symbol b fun heq => ?_
    rw [heq, he.isAlias] at hb
    cases hb
  · rw [h.symbol p fun heq => ?_]
    · exact hp
    · rw [heq, he.alias?] at hp
      cases hp

/-! ## All declarations -/

/-- Each declared name has been declared in one of the ways, but for those that are still being
declared. -/
def Declarations (P : SymbolId → Prop) (s : State) : Prop := ∀ d, ¬s.Undeclared d → P d ∨ s.Made d

theorem Declarations.of_symbols (h : s.Declarations P) (symbols : s'.symbols = s.symbols) :
    s'.Declarations P := by
  have hsymbol (i : SymbolId) : s'.symbol i = s.symbol i := by rw [symbol, symbol, symbols]
  intro d hd
  rw [Undeclared, hsymbol] at hd
  exact (h d hd).imp_right fun hmade => hmade.transfer (hsymbol d) (by rw [hsymbol])
    (fun i std hi => hi.of_symbol_eq (hsymbol i)) (fun b _ => hsymbol b)
    fun p b hp => by rw [hsymbol, hp]

theorem Declarations.of_spares (h : s.Declarations P) (hs : Bounds n s) (hspares : Spares n s s')
    (hnew : ∀ d, s.Undeclared d → s'.Undeclared d)
    (hnext : ∀ d, ¬s.Undeclared d → P d ∨ d + 1 < s.symbols.size) : s'.Declarations P := by
  intro d hd
  have hd : ¬s.Undeclared d := fun hnone => hd (hnew d hnone)
  rcases hnext d hd with hpending | hlt
  · exact .inl hpending
  · exact (h d hd).imp_right fun hmade => hspares.made hs hmade hd hlt

/-- A part of the source that declares nothing. -/
theorem Declarations.of_idle (h : s.Declarations P) (hs : s.Steady) (hidle : Idle s.token s s') :
    s'.Declarations P := by
  refine h.of_spares hs.bounds hidle.toSpares (fun _ => hidle.undeclared_of) fun d hd => .inr ?_
  rw [hs.size]
  exact Nat.succ_lt_succ (hs.lt_of_declared hd)

/-- A name is changed, which is still being declared. -/
theorem Declarations.alter (h : s.Declarations P) (hs' : Alters e s s') (he : s.Bare e) :
    s'.Declarations fun d => d = e ∨ P d := by
  intro d hd
  by_cases heq : d = e
  · exact .inl (.inl heq)
  · rw [Undeclared, hs'.symbol d heq] at hd
    exact (h d hd).imp .inr fun hmade => hs'.made he hmade heq

theorem Declarations.settle (h : s.Declarations fun d => d = e ∨ P d) (he : s.Made e) :
    s.Declarations P := by
  intro d hd
  rcases h d hd with (rfl | hd) | hmade
  · exact .inr he
  · exact .inl hd
  · exact .inr hmade

/-! ## Declaring one name -/

/-- A name that is declared in the open scope. -/
theorem isDeclared_declare {type : SymbolId} (hd : d < s.symbols.size) (hlt : type < d)
    (hkeyword : s.IsKeyword type std) :
    (s.declare d type).IsDeclared d s.scope std { declaredType := type } := by
  have hself : (s.declare d type).symbol d = _ := symbol_declare hd
  refine ⟨by rw [hself]; rfl, by rw [hself]; rfl, by rw [hself]; rfl, hlt, ?_⟩
  exact hkeyword.of_symbol_eq (symbol_modifySymbol_of_ne (Nat.ne_of_lt hlt))

/-- More is known of a name. -/
theorem IsDeclared.modifyDeclaration (h : s.IsDeclared d k std x) (f : Declaration → Declaration)
    (hf : (f x).declaredType = x.declaredType) :
    (s.modifyDeclaration d f).IsDeclared d k std (f x) := by
  have hself := symbol_modifyDeclaration s d f d
  rw [if_pos rfl] at hself
  have htype := symbol_modifyDeclaration s d f x.declaredType
  rw [if_neg (Nat.ne_of_lt h.lt)] at htype
  refine ⟨by rw [hself]; exact h.kind, by rw [hself]; exact h.scope?, ?_, ?_, ?_⟩
  · rw [hself]
    exact congrArg (Option.map f) h.declaration?
  · rw [hf]
    exact h.lt
  · rw [hf]
    exact h.keyword.of_symbol_eq htype

end State

end CStruct.Parse
