import CStruct.Proofs.Redundant.Tracking

/-!
# Steps keep on tracking

Each step that is made without a remark in the first reading can be made in the second one, and the
second still tracks the first.
-/

namespace CStruct.Parse.State

open SymbolTable

variable {k : Nat} {n : String} {s s' s₁ s₁' : State} {name type tag keyword : SymbolId}

/-! ## Symbols that stay -/

theorem KeywordAt.of_eq {id : SymbolId} (h : s.KeywordAt id)
    (hle : s.symbols.size ≤ s₁.symbols.size) (hsymbol : s₁.symbol id = s.symbol id) :
    s₁.KeywordAt id where
  lt := Nat.lt_of_lt_of_le h.lt hle
  prototype := by rw [hsymbol]; exact h.prototype
  undeclared := by rw [Undeclared, hsymbol]; exact h.undeclared

theorem isStruct_of_symbol_eq {id : SymbolId} (h : s.isStruct id = true)
    (hsymbol : s₁.symbol id = s.symbol id)
    (hspelled : ∀ i, s.isStructKeyword i = true → s₁.isStructKeyword i = true) :
    s₁.isStruct id = true := by
  have hlasts : Lasts (s.symbol id) (s₁.symbol id) := by
    rw [hsymbol]
    exact .refl (isDeclaration_of_isStruct h)
  exact isStruct_of_lasts hlasts hspelled h

theorem Ahead.of_eq {id : SymbolId} (h : s.Ahead id) (hle : s.symbols.size ≤ s₁.symbols.size)
    (hsymbol : s₁.symbol id = s.symbol id)
    (hspelled : ∀ i, s.isStructKeyword i = true → s₁.isStructKeyword i = true) :
    s₁.Ahead id where
  lt := Nat.lt_of_lt_of_le h.lt hle
  forward :=
    { struct := isStruct_of_symbol_eq h.forward.struct hsymbol hspelled
      isAlias := by rw [hsymbol]; exact h.forward.isAlias
      innerScope? := by rw [hsymbol]; exact h.forward.innerScope? }
  prototype := by rw [hsymbol]; exact h.prototype

theorem isStructKeyword_lt {id : SymbolId} (h : s.isStructKeyword id = true) :
    id < s.symbols.size := by
  by_contra hid
  rw [isStructKeyword, symbol_of_size_le (Nat.le_of_not_lt hid)] at h
  cases h

theorem isStructKeyword_modifySymbol {id i : SymbolId} {f : Symbol → Symbol}
    (hvalue : ∀ x, (f x).value = x.value) (h : s.isStructKeyword i = true) :
    (s.modifySymbol id f).isStructKeyword i = true := by
  rw [isStructKeyword, Parse.symbol_modifySymbol]
  split
  · rw [hvalue]
    exact h
  · exact h

/-- A step that concerns neither a symbol nor the outermost scope. -/
structure Inward (s s₁ : State) : Prop where
  symbols : s₁.symbols = s.symbols
  root : s₁.scopeAt 0 = s.scopeAt 0

namespace Inward

theorem symbol (h : s.Inward s₁) (id : SymbolId) : s₁.symbol id = s.symbol id := by
  rw [State.symbol, h.symbols, State.symbol]

theorem size_le (h : s.Inward s₁) : s.symbols.size ≤ s₁.symbols.size := by
  rw [h.symbols]

theorem spelled (h : s.Inward s₁) {id : SymbolId} (hid : s.isStructKeyword id = true) :
    s₁.isStructKeyword id = true := by
  rw [isStructKeyword, h.symbol]
  exact hid

theorem keywords (h : s.Inward s₁) (h' : s'.Inward s₁') (hkeywords : Keywords s s') :
    Keywords s₁ s₁' where
  left := fun id hid => by
    rw [h.root] at hid
    exact (hkeywords.left id hid).of_eq h.size_le (h.symbol id)
  right := fun id hid => by
    rw [h'.root] at hid
    exact (hkeywords.right id hid).of_eq h'.size_le (h'.symbol id)
  isSome := by
    rw [h.root, h'.root]
    exact hkeywords.isSome

theorem own (h : s.Inward s₁) (h' : s'.Inward s₁') (hown : Own k n s s') : Own k n s₁ s₁' := by
  unfold Own
  rw [h.root, h'.root]
  rcases hown with ⟨hsame, hstructs⟩ | ⟨hput, hahead', haheads⟩
  · refine .inl ⟨⟨?_, fun id hid => ?_⟩, fun id hid => ?_⟩
    · rw [h.root, h'.root]
      exact hsame.entry
    · rw [h.root] at hid
      rw [h.symbol, h'.symbol]
      exact hsame.matching id hid
    · exact isStruct_of_symbol_eq (hstructs id hid) (h.symbol id) fun _ => h.spelled
  · exact .inr ⟨hput, hahead'.of_eq h'.size_le (h'.symbol _) fun _ => h'.spelled,
      fun id hid => (haheads id hid).of_eq h.size_le (h.symbol id) fun _ => h.spelled⟩

end Inward

/-- A change in the symbols that no name stands for. -/
structure Unnamed (s s₁ : State) : Prop where
  scopes : s₁.scopes = s.scopes
  scope : s₁.scope = s.scope
  outer : s₁.outer = s.outer
  size_le : s.symbols.size ≤ s₁.symbols.size
  symbol : ∀ c name id, (s.scopeAt c).get? name = some id → s₁.symbol id = s.symbol id
  spelled : ∀ i, s.isStructKeyword i = true → s₁.isStructKeyword i = true

namespace Unnamed

theorem scopeAt (h : s.Unnamed s₁) (c : ScopeId) : s₁.scopeAt c = s.scopeAt c := by
  rw [State.scopeAt, h.scopes, State.scopeAt]

theorem refl (s : State) : s.Unnamed s :=
  ⟨rfl, rfl, rfl, Nat.le_refl _, fun _ _ _ _ => rfl, fun _ hi => hi⟩

theorem of_takes {x : Symbol} (h : s.Takes s₁ x)
    (hlt : ∀ c name id, (s.scopeAt c).get? name = some id → id < s.symbols.size) :
    s.Unnamed s₁ where
  scopes := h.scopes
  scope := h.scope
  outer := h.outer
  size_le := by rw [h.size]; exact Nat.le_succ _
  symbol := fun c name id hid => h.symbol_of_lt (hlt c name id hid)
  spelled := fun i hi => by
    rw [isStructKeyword, h.symbol_of_lt (isStructKeyword_lt hi)]
    exact hi

theorem modifySymbol {id : SymbolId} (hunbound : ∀ c name, (s.scopeAt c).get? name ≠ some id)
    {f : Symbol → Symbol} (hvalue : ∀ x, (f x).value = x.value) :
    s.Unnamed (s.modifySymbol id f) where
  scopes := rfl
  scope := rfl
  outer := rfl
  size_le := by rw [State.modifySymbol, Array.size_modify]
  symbol := fun c name i hi => by
    refine symbol_modifySymbol_of_ne ?_
    rintro rfl
    exact hunbound c name hi
  spelled := fun _ => isStructKeyword_modifySymbol hvalue

end Unnamed

/-- A change that leaves prototypes, and what has not been declared, as they are. -/
structure Gentle (f : Symbol → Symbol) : Prop where
  value : ∀ x, (f x).value = x.value
  prototype : ∀ x, (f x).toPrototype = x.toPrototype
  undeclared : ∀ x, x.declaration? = none → (f x).declaration? = none

theorem KeywordAt.modify {i id : SymbolId} (h : s.KeywordAt i) {f : Symbol → Symbol}
    (hf : Gentle f) : (s.modifySymbol id f).KeywordAt i := by
  refine ⟨?_, ?_, ?_⟩
  · rw [State.modifySymbol, Array.size_modify]
    exact h.lt
  · rw [Parse.symbol_modifySymbol]
    split
    · rw [hf.prototype]
      exact h.prototype
    · exact h.prototype
  · rw [Undeclared, Parse.symbol_modifySymbol]
    split
    · exact hf.undeclared _ h.undeclared
    · exact h.undeclared

theorem get?_bind {s : State} (hlt : s.scope < s.scopes.size) (name other : String) (id : SymbolId)
    (c : ScopeId) : ((s.bind name id).scopeAt c).get? other =
      if c = s.scope ∧ other = name then some id else (s.scopeAt c).get? other := by
  rw [scopeAt_bind]
  by_cases hc : c = s.scope
  · subst hc
    rw [if_pos ⟨rfl, hlt⟩, Scope.get?, Scope.insert, Dictionary.get?_insert]
    by_cases hother : other = name
    · rw [if_pos hother, if_pos ⟨rfl, hother⟩]
    · rw [if_neg hother, if_neg fun h => hother h.2]
      rfl
  · rw [if_neg fun h => hc h.1, if_neg fun h => hc h.1]

theorem map_insertEntry {α β : Type} (f : α → β) (name : String) (value : α)
    (entries : List (String × α)) : (insertEntry name value entries).map (Prod.map id f) =
      insertEntry name (f value) (entries.map (Prod.map id f)) := by
  induction entries with
  | nil => rfl
  | cons entry entries ih =>
    rw [insertEntry, List.map_cons, insertEntry]
    by_cases hname : entry.1 = name
    · rw [if_pos hname, if_pos (show (Prod.map id f entry).1 = name from hname)]
      rfl
    · rw [if_neg hname, if_neg (show ¬(Prod.map id f entry).1 = name from hname), List.map_cons, ih]

namespace Tracks

/-- A change in both readings to symbols that no name stands for. -/
theorem unnamed (h : Tracks k n s s') (hs : s.Unnamed s₁) (hs' : s'.Unnamed s₁')
    (hphase : Phase k n s₁ s₁') (hclean : s₁'.Clean) (hsensible : s₁.Sensible)
    (hsimilar : ∀ id < s₁.symbols.size, Similar (s₁.symbol id) (s₁'.symbol (moved k id))) :
    Tracks k n s₁ s₁' where
  phase := hphase
  clean := hclean
  scope := by rw [hs'.scope, hs.scope, h.scope]
  outer := by rw [hs'.outer, hs.outer, h.outer]
  scopes := by rw [hs'.scopes, hs.scopes, h.scopes]
  scope_lt := by rw [hs.scope, hs.scopes]; exact h.scope_lt
  chain := by rw [hs.scope, hs.outer]; exact h.chain
  sensible := hsensible
  similar := hsimilar
  order := fun c hc => by rw [hs.scopeAt, hs'.scopeAt]; exact h.order c hc
  -- what a name stands for has not changed on either side
  same := fun c name hname => by
    have hsame := h.same c name hname
    refine ⟨by rw [hs.scopeAt, hs'.scopeAt]; exact hsame.entry, fun id hid => ?_⟩
    rw [hs.scopeAt] at hid
    rw [hs.symbol c name id hid,
      hs'.symbol c name (moved k id) (hsame.get?_moved hid)]
    exact hsame.matching id hid
  keywords := by
    refine ⟨fun id hid => ?_, fun id hid => ?_, ?_⟩
    · rw [hs.scopeAt] at hid
      exact (h.keywords.left id hid).of_eq hs.size_le (hs.symbol 0 _ id hid)
    · rw [hs'.scopeAt] at hid
      exact (h.keywords.right id hid).of_eq hs'.size_le (hs'.symbol 0 _ id hid)
    · rw [hs.scopeAt, hs'.scopeAt]
      exact h.keywords.isSome
  own := by
    unfold Own
    rw [hs.scopeAt, hs'.scopeAt]
    rcases h.own with ⟨hsame, hstruct⟩ | ⟨hput, hahead', hahead⟩
    · refine .inl ⟨⟨by rw [hs.scopeAt, hs'.scopeAt]; exact hsame.entry, fun id hid => ?_⟩,
        fun id hid => ?_⟩
      · rw [hs.scopeAt] at hid
        rw [hs.symbol 0 n id hid,
          hs'.symbol 0 n (moved k id) (hsame.get?_moved hid)]
        exact hsame.matching id hid
      · exact isStruct_of_symbol_eq (hstruct id hid) (hs.symbol 0 n id hid) hs.spelled
    · refine .inr ⟨hput, hahead'.of_eq hs'.size_le (hs'.symbol 0 n _ hput) hs'.spelled,
        fun id hid => ?_⟩
      exact (hahead id hid).of_eq hs.size_le (hs.symbol 0 n id hid) hs.spelled

/-! ## Reading -/

/-- The same symbol is taken in both readings. -/
theorem takes (h : Tracks k n s s') {x x' : Symbol} (htakes : s.Takes s₁ x)
    (htakes' : s'.Takes s₁' x') (hx : Similar x x') (htypical : Typical x)
    (hnew : x.declaration? = none) (hnew' : x'.declaration? = none)
    (hmoved : moved k s.symbols.size = s'.symbols.size) (hphase : Phase k n s₁ s₁')
    (hended : s₁.endSymbol? ≠ none →
      x.toPrototype = cStructs.prototype endId ∧ x.kind = .endOfInput) :
    Abreast k n s₁ s₁' where
  toTracks := by
    apply h.unnamed (.of_takes htakes fun c name id hid => (h.sensible.bound c name id hid).1)
      (.of_takes htakes' fun c name id => h.entry_lt') hphase
    · rw [Clean, htakes'.diagnostics]
      exact h.clean
    · exact h.sensible.takes htakes htypical
    · intro id hid
      rw [htakes.size] at hid
      rcases Nat.lt_succ_iff_lt_or_eq.1 hid with hlt | rfl
      · rw [htakes.symbol_of_lt hlt, htakes'.symbol_of_lt (h.phase.moved_lt hlt)]
        exact h.similar id hlt
      · rw [hmoved, htakes.symbol_new, htakes'.symbol_new]
        exact hx
  token := by rw [htakes.token, htakes'.token, hmoved]
  newest := by rw [htakes.token, htakes.size]
  newest' := by rw [htakes'.token, htakes'.size]
  -- entries stand for symbols that were there before, so none for the new one
  spare := by
    rw [htakes.token]
    refine ⟨by rw [htakes.size]; exact Nat.lt_succ_self _, ⟨fun c name hid => ?_, ?_⟩,
      ⟨fun c name hid => ?_, ?_⟩⟩
    · rw [htakes.scopeAt] at hid
      exact Nat.lt_irrefl _ (h.sensible.bound c name _ hid).1
    · rw [Undeclared, htakes.symbol_new]
      exact hnew
    · rw [htakes'.scopeAt, hmoved] at hid
      exact Nat.lt_irrefl _ (h.entry_lt' hid)
    · rw [Undeclared, hmoved, htakes'.symbol_new]
      exact hnew'
  ended := by
    rw [htakes.current]
    exact hended

/-- The next lexeme is the same in both readings. -/
theorem advance_lexeme (hn : cStructs.get? n = none) (h : Tracks k n s s') {l : Lexeme}
    {ls ls' : List Lexeme} (hahead : s.ahead = l :: ls) (hahead' : s'.ahead = l :: ls')
    (hmoved : moved k s.symbols.size = s'.symbols.size) (hend : s.endSymbol? = none)
    (hphase : (s.advance cStructs).ahead = ls → (s'.advance cStructs).ahead = ls' →
      (s.advance cStructs).symbols.size = s.symbols.size + 1 →
      (s'.advance cStructs).symbols.size = s'.symbols.size + 1 →
      (s.advance cStructs).endSymbol? = none → (s'.advance cStructs).endSymbol? = none →
      Phase k n (s.advance cStructs) (s'.advance cStructs))
    (hclean : (s.advance cStructs).Clean) :
    Abreast k n (s.advance cStructs) (s'.advance cStructs) := by
  have hend' := h.phase.endSymbol?_eq_none hend
  cases hp : s.prototype? cStructs l with
  | none => exact absurd hclean (not_clean_of_unknown hahead hp)
  | some p =>
    have hsame := h.prototype? hn l
    rw [hp, Option.map_some, Option.map_eq_some_iff] at hsame
    obtain ⟨p', hp', hpp⟩ := hsame
    obtain ⟨hid, hrole⟩ := Prod.ext_iff.1 hpp
    obtain ⟨l₀, rfl, htakes, hrest, hend₁⟩ := takes_lexeme hahead hp
    obtain ⟨l₁, hl₁, htakes', hrest', hend₁'⟩ := takes_lexeme hahead' hp'
    have htext : l₁.text = l₀.text := (congrArg Lexeme.text hl₁ :)
    have hkind : l₁.kind = l₀.kind := (congrArg Lexeme.kind hl₁ :)
    refine h.takes htakes htakes' ⟨hid, hrole, htext, congrArg kindOf hkind⟩
      (h.sensible.typical_madeOf (l := l₀) hp) rfl rfl hmoved ?_ ?_
    · exact hphase hrest hrest' htakes.size htakes'.size (hend₁.trans hend) (hend₁'.trans hend')
    · exact fun hne => absurd (hend₁.trans hend) hne

/-- Before the end of the source, both readings take the next symbol, and not what was put in. -/
theorem advance (hn : cStructs.get? n = none) (h : Tracks k n s s') (hend : s.endSymbol? = none)
    (hstay : s.symbols.size < k ∨ s'.symbols.size = s.symbols.size + 3)
    (hclean : (s.advance cStructs).Clean) :
    Abreast k n (s.advance cStructs) (s'.advance cStructs) := by
  have hend' := h.phase.endSymbol?_eq_none hend
  -- in front of what was put in there is a lexeme left; behind it the end may come
  cases h.phase with
  | @before a c hahead hahead' hk hsize =>
    have hlt : s.symbols.size < k := by
      rcases hstay with hlt | hput
      · exact hlt
      · exact absurd (hsize.symm.trans hput) (by omega)
    cases a with
    | nil => exact absurd hk (Nat.ne_of_lt hlt)
    | cons l a =>
      refine h.advance_lexeme hn hahead hahead' ((moved_of_lt hlt).trans hsize.symm) hend ?_ hclean
      intro hrest hrest' hnext hnext' hend₁ hend₁'
      refine .before hrest hrest' ?_ (by rw [hnext, hnext', hsize]) hend₁ hend₁'
      rw [hnext, ← hk, List.length_cons, Nat.add_right_comm, Nat.add_assoc]
  | after hle hsize hahead hends =>
    have hmoved := (moved_of_le hle).trans hsize.symm
    cases hs : s.ahead with
    | cons l ls =>
      refine h.advance_lexeme hn hs (hahead.trans hs) hmoved hend ?_ hclean
      intro hrest hrest' hnext hnext' hend₁ hend₁'
      refine .after ?_ ?_ (hrest'.trans hrest.symm) (by rw [hend₁, hend₁']; rfl)
      · rw [hnext]
        exact Nat.le_succ_of_le hle
      · rw [hnext, hnext', hsize]
    | nil =>
      obtain ⟨htakes, hrest, hends₁⟩ := takes_end (t := cStructs) hs hend
      obtain ⟨htakes', hrest', hends₁'⟩ := takes_end (t := cStructs) (hahead.trans hs) hend'
      refine h.takes htakes htakes' ⟨rfl, rfl, rfl, rfl⟩ (Sensible.typical_end s) rfl rfl
        hmoved ?_ ?_
      · refine .after ?_ ?_ (hrest'.trans hrest.symm) ?_
        · rw [htakes.size]
          exact Nat.le_succ_of_le hle
        · rw [htakes.size, htakes'.size, hsize]
        · rw [hends₁, hends₁', Option.map_some, hmoved]
      · exact fun _ => ⟨rfl, rfl⟩

/-! ## Changing symbols -/

/-- Alike symbols that are changed alike stay alike. -/
theorem similar_modify (h : Tracks k n s s') {id : SymbolId} {f f' : Symbol → Symbol}
    (hsimilar : Similar (s.symbol id) (s'.symbol (moved k id)) →
      Similar (f (s.symbol id)) (f' (s'.symbol (moved k id)))) :
    ∀ i < (s.modifySymbol id f).symbols.size, Similar ((s.modifySymbol id f).symbol i)
      ((s'.modifySymbol (moved k id) f').symbol (moved k i)) := by
  intro i hi
  rw [State.modifySymbol, Array.size_modify] at hi
  have hsame := h.similar i hi
  by_cases hne : i = id
  · subst hne
    rw [symbol_modifySymbol_self hi, symbol_modifySymbol_self (h.phase.moved_lt hi)]
    exact hsimilar hsame
  · rw [symbol_modifySymbol_of_ne hne,
      symbol_modifySymbol_of_ne fun heq => hne (moved_injective k heq)]
    exact hsame

theorem phase_modify (h : Tracks k n s s') (id id' : SymbolId) (f f' : Symbol → Symbol) :
    Phase k n (s.modifySymbol id f) (s'.modifySymbol id' f') :=
  h.phase.of_eq Array.size_modify Array.size_modify rfl rfl rfl rfl

/-- A change to a symbol that no name stands for. -/
theorem modify_unbound (h : Tracks k n s s') {id : SymbolId}
    (hunbound : ∀ c name, (s.scopeAt c).get? name ≠ some id)
    (hunbound' : ∀ c name, (s'.scopeAt c).get? name ≠ some (moved k id)) {f f' : Symbol → Symbol}
    (hvalue : ∀ x, (f x).value = x.value) (hvalue' : ∀ x, (f' x).value = x.value)
    (hsensible : (s.modifySymbol id f).Sensible)
    (hsimilar : Similar (s.symbol id) (s'.symbol (moved k id)) →
      Similar (f (s.symbol id)) (f' (s'.symbol (moved k id)))) :
    Tracks k n (s.modifySymbol id f) (s'.modifySymbol (moved k id) f') :=
  h.unnamed (.modifySymbol hunbound hvalue) (.modifySymbol hunbound' hvalue')
    (h.phase_modify id (moved k id) f f') h.clean hsensible (h.similar_modify hsimilar)

/-- A change to a symbol that names may stand for. -/
theorem modify (h : Tracks k n s s') (id : SymbolId) {f f' : Symbol → Symbol} (hf : Gentle f)
    (hf' : Gentle f') (hsensible : (s.modifySymbol id f).Sensible)
    (hsimilar : ∀ x x', Similar x x' → Similar (f x) (f' x'))
    (hmatches : ∀ x x', Matches k x x' → Matches k (f x) (f' x'))
    (hstruct : s.isStruct id = true → (s.modifySymbol id f).isStruct id = true)
    (hahead : (s.scopeAt 0).get? n = some id → (s'.scopeAt 0).get? n = some (k + 1) →
      s.Ahead id → (s.modifySymbol id f).Ahead id) :
    Tracks k n (s.modifySymbol id f) (s'.modifySymbol (moved k id) f') := by
  have hspelled (i : SymbolId) (hi : s.isStructKeyword i = true) :
      (s.modifySymbol id f).isStructKeyword i = true := isStructKeyword_modifySymbol hf.value hi
  have hmatching (i : SymbolId) (hi : i < s.symbols.size)
      (hm : Matches k (s.symbol i) (s'.symbol (moved k i))) :
      Matches k ((s.modifySymbol id f).symbol i)
        ((s'.modifySymbol (moved k id) f').symbol (moved k i)) := by
    by_cases hne : i = id
    · subst hne
      rw [symbol_modifySymbol_self hi, symbol_modifySymbol_self (h.phase.moved_lt hi)]
      exact hmatches _ _ hm
    · rw [symbol_modifySymbol_of_ne hne,
        symbol_modifySymbol_of_ne fun heq => hne (moved_injective k heq)]
      exact hm
  have hsame {c : ScopeId} {name : String} (hsame : SameEntry k s s' c name) :
      SameEntry k (s.modifySymbol id f) (s'.modifySymbol (moved k id) f') c name :=
    ⟨hsame.entry, fun i hi => hmatching i (h.sensible.bound c name i hi).1 (hsame.matching i hi)⟩
  refine
    { phase := h.phase_modify id (moved k id) f f'
      clean := h.clean
      scope := h.scope
      outer := h.outer
      scopes := h.scopes
      scope_lt := h.scope_lt
      chain := h.chain
      sensible := hsensible
      similar := h.similar_modify (hsimilar _ _)
      order := h.order
      same := fun c name hname => hsame (h.same c name hname)
      keywords :=
        { left := fun i hi => (h.keywords.left i hi).modify hf
          right := fun i hi => (h.keywords.right i hi).modify hf'
          isSome := h.keywords.isSome }
      own := ?_ }
  have hof (i : SymbolId) (hne : i ≠ id) : (s.modifySymbol id f).symbol i = s.symbol i :=
    symbol_modifySymbol_of_ne hne
  rcases h.own with ⟨hown, hstructs⟩ | ⟨hput, hahead', haheads⟩
  · refine .inl ⟨hsame hown, fun i hi => ?_⟩
    by_cases hne : i = id
    · subst hne
      exact hstruct (hstructs i hi)
    · exact isStruct_of_symbol_eq (hstructs i hi) (hof i hne) hspelled
  · refine .inr ⟨hput, ?_, fun i hi => ?_⟩
    · -- the symbol that was put in is not changed
      refine hahead'.of_eq (Nat.le_of_eq Array.size_modify.symm)
        (symbol_modifySymbol_of_ne fun heq => moved_ne_put k id heq.symm) ?_
      exact fun i => isStructKeyword_modifySymbol hf'.value
    · by_cases hne : i = id
      · subst hne
        exact hahead hi hput (haheads i hi)
      · exact (haheads i hi).of_eq (Nat.le_of_eq Array.size_modify.symm) (hof i hne) hspelled

/-! ## Binding names -/

end Tracks

/-- The same symbol is bound in both readings. -/
theorem SameEntry.bind {c : ScopeId} {id : SymbolId} {value name : String}
    (hscope : s'.scope = s.scope) (hlt : s.scope < s.scopes.size) (hlt' : s'.scope < s'.scopes.size)
    (hmatches : Matches k (s.symbol id) (s'.symbol (moved k id)))
    (h : ¬(c = s.scope ∧ name = value) → SameEntry k s s' c name) :
    SameEntry k (s.bind value id) (s'.bind value (moved k id)) c name := by
  refine ⟨?_, fun i hi => ?_⟩
  · rw [get?_bind hlt, get?_bind hlt', hscope]
    split
    · rfl
    · rename_i hne
      exact (h hne).entry
  · rw [get?_bind hlt] at hi
    split at hi
    · cases hi
      exact hmatches
    · rename_i hne
      exact (h hne).matching i hi

/-- The keyword `struct` may be what is bound. -/
theorem KeywordAt.bind {id i : SymbolId} {value : String} (hlt : s.scope < s.scopes.size)
    (h : ∀ i, (s.scopeAt 0).get? structKeyword = some i → s.KeywordAt i)
    (hid : s.scope = 0 → value = structKeyword → s.KeywordAt id)
    (hi : ((s.bind value id).scopeAt 0).get? structKeyword = some i) :
    (s.bind value id).KeywordAt i := by
  rw [get?_bind hlt] at hi
  split at hi
  · rename_i hroot
    cases hi
    exact (hid hroot.1.symm hroot.2.symm).of_eq (Nat.le_refl _) rfl
  · exact (h i hi).of_eq (Nat.le_refl _) rfl

namespace Tracks

/-- A name that gets to stand for the same symbol in both readings. -/
theorem bind (h : Tracks k n s s') {id : SymbolId}
    (hid : id < s.symbols.size) (hkind : (s.symbol id).kind ≠ .literal)
    (hmatches : Matches k (s.symbol id) (s'.symbol (moved k id)))
    (hkeyword : s.scope = 0 → (s.symbol id).value = structKeyword →
      s.KeywordAt id ∧ s'.KeywordAt (moved k id))
    (hstruct : s.scope = 0 → (s.symbol id).value = n → s.isStruct id = true) :
    Tracks k n (s.bind (s.symbol id).value id) (s'.bind (s.symbol id).value (moved k id)) := by
  have hget := get?_bind h.scope_lt (s.symbol id).value
  have hget' := get?_bind (s := s') h.scope_lt' (s.symbol id).value
  rw [h.scope] at hget'
  have hsame {c : ScopeId} {name : String}
      (hsame : ¬(c = s.scope ∧ name = (s.symbol id).value) → SameEntry k s s' c name) :
      SameEntry k (s.bind (s.symbol id).value id) (s'.bind (s.symbol id).value (moved k id)) c
        name := .bind h.scope h.scope_lt h.scope_lt' hmatches hsame
  refine
    { phase := h.phase.of_eq rfl rfl rfl rfl rfl rfl
      clean := h.clean
      scope := h.scope
      outer := h.outer
      scopes := ?scopes
      scope_lt := ?scope_lt
      chain := h.chain
      sensible := h.sensible.bind hid hkind
      similar := h.similar
      order := ?order
      same := fun c name hname => hsame fun _ => h.same c name hname
      keywords :=
        { left := fun i => .bind h.scope_lt h.keywords.left fun hscope hvalue =>
            (hkeyword hscope hvalue).1
          right := fun i => .bind h.scope_lt' h.keywords.right fun hscope hvalue =>
            (hkeyword (h.scope.symm.trans hscope) hvalue).2
          isSome := ?isSome }
      own := ?own }
  case scopes =>
    rw [State.bind, State.bind, Array.size_modify, Array.size_modify]
    exact h.scopes
  case scope_lt =>
    rw [State.bind, Array.size_modify]
    exact h.scope_lt
  case order =>
    intro c hc
    rw [scopeAt_bind, scopeAt_bind, h.scope, h.scopes]
    split
    · rw [Scope.insert, Scope.insert]
      show insertEntry _ _ _ = (insertEntry _ _ _).map _
      rw [map_insertEntry, h.order c hc]
    · exact h.order c hc
  case isSome =>
    intro hsome
    rw [hget] at hsome
    rw [hget']
    split
    · rfl
    · rename_i hne
      rw [if_neg hne] at hsome
      exact h.keywords.isSome hsome
  case own =>
    by_cases hroot : 0 = s.scope ∧ n = (s.symbol id).value
    · refine .inl ⟨hsame fun hne => absurd hroot hne, fun i hi => ?_⟩
      rw [hget, if_pos hroot] at hi
      cases hi
      exact hstruct hroot.1.symm hroot.2.symm
    · rcases h.own with ⟨hown, hstructs⟩ | ⟨hput, hahead', haheads⟩
      · refine .inl ⟨hsame fun _ => hown, fun i hi => ?_⟩
        rw [hget, if_neg hroot] at hi
        exact hstructs i hi
      · refine .inr ⟨?_, hahead'.of_eq (Nat.le_refl _) rfl fun _ hi => hi, fun i hi => ?_⟩
        · rw [hget', if_neg hroot]
          exact hput
        · rw [hget, if_neg hroot] at hi
          exact (haheads i hi).of_eq (Nat.le_refl _) rfl fun _ hi => hi

end Tracks

end CStruct.Parse.State
