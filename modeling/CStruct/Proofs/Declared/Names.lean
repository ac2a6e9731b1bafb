import CStruct.Proofs.Declared.Sources
import Mathlib.Data.List.Nodup

/-!
# The names of a source

Every entry of a scope is found under the spelling of its symbol, so that the names of members are
distinct, and so are those of structs. The declarations that a source lists are its global structs;
those of them that have a body and have not been displaced by another entry are its structs.
-/

namespace CStruct

/-! ## Entries of dictionaries -/

namespace Dictionary

variable {α : Type} {d : Dictionary α} {name : String} {value : α}

theorem mem_entries_iff : (name, value) ∈ d.entries ↔ d.get? name = some value := by
  rw [get?, List.lookup_eq_some_iff]
  constructor
  · intro hmem
    obtain ⟨before, behind, heq⟩ := List.append_of_mem hmem
    refine ⟨before, behind, heq, fun entry hentry => bne_iff_ne.2 fun hname => ?_⟩
    -- a name has one entry only
    have hnodup := d.nodup_keys
    rw [heq, List.map_append, List.map_cons, List.nodup_append] at hnodup
    exact hnodup.2.2 entry.1 (List.mem_map_of_mem hentry) name List.mem_cons_self hname.symm
  · rintro ⟨before, behind, heq, -⟩
    rw [heq]
    exact List.mem_append_right _ List.mem_cons_self

theorem mem_values_iff : value ∈ d.values ↔ ∃ name, d.get? name = some value := by
  rw [values, List.mem_map]
  constructor
  · rintro ⟨⟨name, value⟩, hmem, rfl⟩
    exact ⟨name, mem_entries_iff.1 hmem⟩
  · rintro ⟨name, hget⟩
    exact ⟨(name, value), mem_entries_iff.2 hget, rfl⟩

/-- Where the names can be told from the values, the values come under distinct names. -/
theorem nodup_map_values {f : α → String}
    (h : ∀ name value, d.get? name = some value → f value = name) : (d.values.map f).Nodup := by
  have hkeys : d.values.map f = d.keys := by
    rw [values, keys, List.map_map]
    exact List.map_congr_left fun entry hentry => h entry.1 entry.2 (mem_entries_iff.1 hentry)
  rw [hkeys]
  exact d.nodup_keys

end Dictionary

/-! ## Keywords of C -/

namespace SymbolTable

/-- What is so of all entries of a table is so of what symbols take over from them. -/
theorem role_of_get? {t : SymbolTable} {R : String → Role → Prop}
    (hall : ∀ entry ∈ t.entries.entries, R entry.1 entry.2.role) {id : String} {p : Prototype}
    (h : t.get? id = some p) : R id p.role := by
  obtain ⟨x, hx, rfl⟩ := Option.map_eq_some_iff.1 h
  exact hall (id, x) (Dictionary.mem_entries_iff.2 hx)

/-- The keyword of structs is spelled in one way only. -/
theorem eq_struct_of_get? {id : String} {p : Prototype} (h : cStructs.get? id = some p)
    (hstd : p.role.std = some .struct) : id = Parse.State.structKeyword :=
  role_of_get? (R := fun id role => role.std = some .struct → id = Parse.State.structKeyword)
    (by decide) h hstd

/-- Members are declared with the keywords of primitive types. -/
theorem exists_keyword_of_get? {id : String} {p : Prototype} (h : cStructs.get? id = some p)
    (hstd : p.role.std = some .member) : ∃ type : PrimitiveType, type.keyword = id := by
  obtain ⟨type, -, htype⟩ := role_of_get? (R := fun id role => role.std = some .member →
    ∃ type ∈ PrimitiveType.all, type.keyword = id) (by decide) h hstd
  exact ⟨type, htype⟩

end SymbolTable

namespace TranslationUnit

open SymbolTable Parse Parse.State

variable {t : SymbolTable} {lexemes : List Lexeme} {endPosition : Position} {u : TranslationUnit}

/-! ## Names -/

/-- With the table of C, what was declared was declared with a keyword of that table. -/
theorem exists_get?_typeName (h : ofLexemes? cStructs lexemes endPosition = some u)
    {d type : SymbolId} {std : StatementDenotation}
    (htype : (u.symbol d).declaredType? = some type)
    (hstd : (u.symbol type).role.std = some std) :
    ∃ name p, u.typeName? d = some name ∧ cStructs.get? name = some p ∧ p.role.std = some std := by
  obtain ⟨names, s, hs, hchanges, -⟩ := Parse.changes_program ends_cStructs lexemes endPosition
  cases h.symm.trans hs
  have hspelled := hchanges.spelled (keyed_ofLexemes lexemes endPosition)
    (spelled_ofLexemes lexemes endPosition)
  obtain ⟨p, hp, hpstd⟩ := hspelled type std hstd
  refine ⟨(s.symbol type).value, p, ?_, hp, hpstd⟩
  rw [typeName?, htype]
  rfl

/-- The spellings of the names declared in one scope are distinct. -/
theorem nodup_declared (h : ofLexemes? t lexemes endPosition = some u) (k : ScopeId) :
    ((u.declared k).map fun id => (u.symbol id).value).Nodup := by
  obtain ⟨names, s, -, rfl, -, hc, -⟩ := brings_ofLexemes h
  have hvalues : ((s.scopeAt k).definitions.values.map fun id => (s.symbol id).value).Nodup :=
    Dictionary.nodup_map_values fun name id hid => (hc.indexed k name id hid).value
  exact hvalues.sublist (List.filter_sublist.map _)

/-- What was declared with a keyword of structs was declared with `struct`. -/
theorem typeName?_of_isDeclared {names : List SymbolId} {s : State}
    (h : ofLexemes? cStructs lexemes endPosition = some (ofState names s)) {d : SymbolId}
    {k : ScopeId} {x : Declaration} (hx : s.IsDeclared d k .struct x) :
    (ofState names s).typeName? d = some structKeyword := by
  obtain ⟨name, p, hname, hp, hstd⟩ := exists_get?_typeName h hx.declaredType?_eq hx.keyword.std
  rw [hname, eq_struct_of_get? hp hstd]

/-- An entry of a scope is a symbol under its own spelling: a name declared in that scope with a
keyword that stands before it, or a keyword that is reserved. -/
theorem entry_spec (h : ofLexemes? t lexemes endPosition = some u) {k : ScopeId} {name : String}
    {id : SymbolId} (hk : (u.scope k).get? name = some id) :
    id < u.symbols.size ∧ (u.symbol id).value = name ∧
      ((u.symbol id).isDeclaration = true ∧ (u.symbol id).scope? = some k ∧
          (∃ type, (u.symbol id).declaredType? = some type ∧ type < id ∧
            (u.symbol type).kind = .statement) ∨
        (u.symbol id).reserved = true ∧ (u.symbol id).isDeclaration = false) := by
  obtain ⟨names, s, -, rfl, -, hc, -⟩ := brings_ofLexemes h
  refine ⟨hc.entry_lt hk, (hc.indexed k name id hk).value, ?_⟩
  rcases (hc.indexed k name id hk).meaning with ⟨-, hscope, hdeclared⟩ | ⟨hreserved, hundeclared⟩
  · obtain ⟨j, std, x, hx⟩ := (hc.made hdeclared).isDeclared
    exact .inl ⟨hx.isDeclaration, hscope, x.declaredType, hx.declaredType?_eq, hx.lt,
      hx.keyword.kind⟩
  · exact .inr ⟨hreserved, Bool.eq_false_iff.2 (not_isDeclaration hundeclared)⟩

/-- The scopes stay consistent. Each of their entries is a symbol under its own spelling, either a
name declared in that scope with a keyword that stands before it, or a keyword that is reserved. So
the members of a struct have distinct names, and so have the structs. With the table of C, names are
declared with `struct` or the keyword of a primitive type, and those outside all structs with
`struct`. -/
theorem entries_consistent (h : ofLexemes? t lexemes endPosition = some u) :
    (∀ k name id, (u.scope k).get? name = some id →
      id < u.symbols.size ∧ (u.symbol id).value = name ∧
      ((u.symbol id).isDeclaration = true ∧ (u.symbol id).scope? = some k ∧
          (∃ type, (u.symbol id).declaredType? = some type ∧ type < id ∧
            (u.symbol type).kind = .statement) ∨
        (u.symbol id).reserved = true ∧ (u.symbol id).isDeclaration = false)) ∧
    (∀ d, ((u.members d).map fun id => (u.symbol id).value).Nodup) ∧
    (u.structs.map fun id => (u.symbol id).value).Nodup ∧
    (t = cStructs → ∀ d, (u.symbol d).isDeclaration = true →
      (u.typeName? d = some structKeyword ∨
        ∃ type : PrimitiveType, u.typeName? d = some type.keyword) ∧
      ((u.symbol d).scope? = some rootScope → u.typeName? d = some structKeyword)) := by
  refine ⟨fun k name id hk => entry_spec h hk, fun d => ?_, ?_, fun ht d hd => ?_⟩
  · unfold members
    split
    · exact nodup_declared h _
    · exact List.nodup_nil
  · exact (nodup_declared h rootScope).sublist (List.filter_sublist.map _)
  · subst ht
    have hread := h
    obtain ⟨names, s, -, rfl, -, hc, -⟩ := brings_ofLexemes h
    have hmade := hc.made (not_undeclared_of_isDeclaration hd)
    constructor
    · obtain ⟨k, std, x, hx⟩ := hmade.isDeclared
      cases std with
      | struct => exact .inl (typeName?_of_isDeclared hread hx)
      | member =>
        obtain ⟨name, p, hname, hp, hstd⟩ :=
          exists_get?_typeName hread hx.declaredType?_eq hx.keyword.std
        obtain ⟨type, htype⟩ := exists_keyword_of_get? hp hstd
        exact .inr ⟨type, by rw [hname, htype]⟩
    · intro hscope
      -- members stand in the bodies of structs only
      cases hmade with
      | member hk hx => exact absurd (Option.some.inj (hx.scope?.symm.trans hscope)) hk
      | forward hx => exact typeName?_of_isDeclared hread hx
      | tagged hx => exact typeName?_of_isDeclared hread hx
      | untagged hx => exact typeName?_of_isDeclared hread hx
      | aliased hx => exact typeName?_of_isDeclared hread hx

theorem entries_of_nestedStructs :
    ((ofSource nestedStructs).scope rootScope).get? "c" = some 18 ∧
    ((ofSource nestedStructs).symbol 18).value = "c" ∧
    ((ofSource nestedStructs).symbol 18).scope? = some rootScope ∧
    (ofSource nestedStructs).typeName? 18 = some structKeyword ∧
    (((ofSource nestedStructs).members 4).map fun id =>
      ((ofSource nestedStructs).symbol id).value).Nodup := by
  obtain ⟨hentry, hdeclared⟩ :
      ((ofSource nestedStructs).scope rootScope).get? "c" = some 18 ∧
      ((ofSource nestedStructs).symbol 18).isDeclaration = true := by
    decide +kernel
  obtain ⟨hentries, hmembers, -, hkeywords⟩ :=
    entries_consistent (ofLexemes?_ofSource nestedStructs)
  obtain ⟨-, hvalue, ⟨-, hscope, -⟩ | ⟨-, hreserved⟩⟩ := hentries rootScope "c" 18 hentry
  · exact ⟨hentry, hvalue, hscope, (hkeywords rfl 18 hdeclared).2 hscope, hmembers 4⟩
  · exact absurd (hdeclared.symm.trans hreserved) nofun

/-! ## Lists of structs -/

theorem mem_declared_iff {k : ScopeId} {d : SymbolId} :
    d ∈ u.declared k ↔
      (∃ name, (u.scope k).get? name = some d) ∧ (u.symbol d).isDeclaration = true := by
  rw [declared, List.mem_filter, Dictionary.mem_values_iff]
  rfl

/-- The declarations of a source are the names declared outside all structs that are no typedef
names of others. -/
theorem mem_declarations_iff (h : ofLexemes? t lexemes endPosition = some u) {d : SymbolId} :
    d ∈ u.declarations ↔ (u.symbol d).isDeclaration = true ∧ (u.symbol d).isAlias = false ∧
      (u.symbol d).scope? = some rootScope := by
  obtain ⟨names, s, -, rfl, -, hc, -, -, hlisted⟩ := brings_ofLexemes h
  show d ∈ names ↔ _
  rw [hlisted.mem]
  constructor
  · rintro ⟨-, x, hx, halias⟩
    exact ⟨hx.isDeclaration, hx.isAlias_eq.trans halias, hx.scope?⟩
  · rintro ⟨hd, halias, hscope⟩
    exact ⟨Nat.zero_le d,
      (hc.made (not_undeclared_of_isDeclaration hd)).heads hscope halias⟩

/-- The structs of a source are the declarations with a body that are declared with `struct` and hold
their place in the scope of the source. -/
theorem mem_structs_iff (h : ofLexemes? t lexemes endPosition = some u) {d : SymbolId} :
    d ∈ u.structs ↔ d ∈ u.declarations ∧
      (u.scope rootScope).get? (u.symbol d).value = some d ∧
      (u.symbol d).innerScope?.isSome = true ∧ u.typeName? d = some structKeyword := by
  rw [structs, List.mem_filter, mem_declared_iff, mem_declarations_iff h, Bool.and_eq_true,
    Bool.and_eq_true, Bool.not_eq_true', isStruct, beq_iff_eq]
  constructor
  · rintro ⟨⟨⟨name, hname⟩, hd⟩, ⟨halias, hbody⟩, htype⟩
    obtain ⟨-, hvalue, hmeaning⟩ := entry_spec h hname
    rcases hmeaning with ⟨-, hscope, -⟩ | ⟨-, hnot⟩
    · exact ⟨⟨hd, halias, hscope⟩, by rw [hvalue]; exact hname, hbody, htype⟩
    · exact absurd (hd.symm.trans hnot) nofun
  · rintro ⟨⟨hd, halias, -⟩, hholds, hbody, htype⟩
    exact ⟨⟨⟨_, hholds⟩, hd⟩, ⟨halias, hbody⟩, htype⟩

/-- The declarations of a source are its global structs, each once and in order: the names declared
outside all structs that are no typedef names of others. Its structs are those of them that have a
body, are declared with `struct` and hold their place in the scope of the source, each once. -/
theorem declarations_listed (h : ofLexemes? t lexemes endPosition = some u) :
    u.declarations.Pairwise (· < ·) ∧
    (∀ d, d ∈ u.declarations ↔ (u.symbol d).isDeclaration = true ∧ (u.symbol d).isAlias = false ∧
      (u.symbol d).scope? = some rootScope) ∧
    u.structs.Nodup ∧
    ∀ d, d ∈ u.structs ↔ d ∈ u.declarations ∧
      (u.scope rootScope).get? (u.symbol d).value = some d ∧
      (u.symbol d).innerScope?.isSome = true ∧ u.typeName? d = some structKeyword := by
  have hnodup := (nodup_declared h rootScope).sublist
    (List.filter_sublist (p := fun id => !(u.symbol id).isAlias &&
      (u.symbol id).innerScope?.isSome && u.isStruct id) |>.map _)
  refine ⟨?_, fun d => mem_declarations_iff h, List.Nodup.of_map _ hnodup,
    fun d => mem_structs_iff h⟩
  obtain ⟨names, s, -, rfl, -, -, -, -, hlisted⟩ := brings_ofLexemes h
  exact hlisted.sorted

theorem structs_of_nestedStructs :
    (1 ∈ (ofSource nestedStructs).declarations ∧ 1 ∉ (ofSource nestedStructs).structs) ∧
    4 ∈ (ofSource nestedStructs).structs ∧
    18 ∉ (ofSource nestedStructs).declarations := by
  obtain ⟨⟨hahead, hnone⟩, ⟨hdeclared, hstruct⟩, halias⟩ :
      ((((ofSource nestedStructs).symbol 1).isDeclaration = true ∧
        ((ofSource nestedStructs).symbol 1).isAlias = false ∧
        ((ofSource nestedStructs).symbol 1).scope? = some rootScope) ∧
      ((ofSource nestedStructs).symbol 1).innerScope?.isSome = false) ∧
      ((((ofSource nestedStructs).symbol 4).isDeclaration = true ∧
        ((ofSource nestedStructs).symbol 4).isAlias = false ∧
        ((ofSource nestedStructs).symbol 4).scope? = some rootScope) ∧
      ((ofSource nestedStructs).scope rootScope).get? ((ofSource nestedStructs).symbol 4).value =
        some 4 ∧
      ((ofSource nestedStructs).symbol 4).innerScope?.isSome = true ∧
      (ofSource nestedStructs).typeName? 4 = some structKeyword) ∧
      ((ofSource nestedStructs).symbol 18).isAlias = true := by
    decide +kernel
  obtain ⟨-, hdeclarations, -, hstructs⟩ := declarations_listed (ofLexemes?_ofSource nestedStructs)
  refine ⟨⟨(hdeclarations 1).2 hahead, fun hmem => ?_⟩,
    (hstructs 4).2 ⟨(hdeclarations 4).2 hdeclared, hstruct⟩, fun hmem => ?_⟩
  · exact absurd (hnone.symm.trans ((hstructs 1).1 hmem).2.2.1) nofun
  · exact absurd (halias.symm.trans ((hdeclarations 18).1 hmem).2.1) nofun

end TranslationUnit

end CStruct
