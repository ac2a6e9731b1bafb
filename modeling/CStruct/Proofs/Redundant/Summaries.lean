import CStruct.Proofs.Redundant.Tracking
import CStruct.Proofs.Declared.Names

/-!
# What is told of structs

Of a struct, its name is told, its typedef name and its members: of each the name, the type and the
length. Where a reading has tracked another to the end, both tell the same of the same structs,
possibly in another order.
-/

namespace CStruct

/-- What is told of a member. -/
@[ext]
structure MemberSummary where
  name : String
  type? : Option String
  length? : Option String
  deriving DecidableEq

/-- What is told of a struct. -/
@[ext]
structure StructSummary where
  name : String
  alias? : Option String
  members : List MemberSummary
  deriving DecidableEq

namespace TranslationUnit

def memberSummary (u : TranslationUnit) (id : SymbolId) : MemberSummary where
  name := (u.symbol id).value
  type? := u.typeName? id
  length? := (u.symbol id).dimension?.map fun length => (u.symbol length).value

def summary (u : TranslationUnit) (struct : SymbolId) : StructSummary where
  name := (u.symbol struct).value
  alias? := (u.symbol struct).alias?.map fun typedefName => (u.symbol typedefName).value
  members := (u.members struct).map u.memberSummary

/-- What is told of the structs of a source, in the order in which they were first named. -/
def summaries (u : TranslationUnit) : List StructSummary := u.structs.map u.summary

/-- A struct is the entry of the outermost scope for some name, and has a body. -/
theorem mem_structs_iff_entry {u : TranslationUnit} {d : SymbolId} :
    d ∈ u.structs ↔ (∃ name, (u.scope rootScope).get? name = some d) ∧
      (u.symbol d).isDeclaration = true ∧ (u.symbol d).isAlias = false ∧
        (u.symbol d).innerScope?.isSome = true ∧ u.isStruct d = true := by
  rw [structs, List.mem_filter, mem_declared_iff, Bool.and_eq_true, Bool.and_eq_true,
    Bool.not_eq_true', and_assoc, and_assoc]

end TranslationUnit

namespace Parse

open SymbolTable State TranslationUnit

variable {k : Nat} {n name : String} {s s' : State} {names names' : List SymbolId} {d id : SymbolId}

namespace Matches

variable (h : Matches k (s.symbol id) (s'.symbol (moved k id)))
include h

theorem isDeclaration :
    (s'.symbol (moved k id)).isDeclaration = (s.symbol id).isDeclaration := by
  rw [Symbol.isDeclaration, Symbol.isDeclaration, h.kind, h.declaration?, Option.isSome_map]

theorem isAlias : (s'.symbol (moved k id)).isAlias = (s.symbol id).isAlias := by
  rw [Symbol.isAlias, Symbol.isAlias, h.declaration?]
  cases (s.symbol id).declaration? <;> rfl

theorem innerScope? : (s'.symbol (moved k id)).innerScope? = (s.symbol id).innerScope? := by
  rw [Symbol.innerScope?, Symbol.innerScope?, h.declaration?]
  cases (s.symbol id).declaration? <;> rfl

theorem declaredType? :
    (s'.symbol (moved k id)).declaredType? = (s.symbol id).declaredType?.map (moved k) := by
  rw [Symbol.declaredType?, Symbol.declaredType?, h.declaration?]
  cases (s.symbol id).declaration? <;> rfl

theorem dimension? :
    (s'.symbol (moved k id)).dimension? = (s.symbol id).dimension?.map (moved k) := by
  rw [Symbol.dimension?, Symbol.dimension?, h.declaration?]
  cases (s.symbol id).declaration? <;> rfl

theorem alias? : (s'.symbol (moved k id)).alias? = (s.symbol id).alias?.map (moved k) := by
  rw [Symbol.alias?, Symbol.alias?, h.declaration?]
  cases (s.symbol id).declaration? <;> rfl

end Matches

namespace State

/-- A struct with a body in the outermost scope. -/
theorem mem_structs_ofState : d ∈ (ofState names s).structs ↔
    (∃ name, (s.scopeAt 0).get? name = some d) ∧ (s.symbol d).isDeclaration = true ∧
      (s.symbol d).isAlias = false ∧ (s.symbol d).innerScope?.isSome = true ∧
        (ofState names s).isStruct d = true :=
  mem_structs_iff_entry

/-- What has a body has not been declared ahead of it. -/
theorem Ahead.innerScope? (h : s.Ahead d) : (s.symbol d).innerScope?.isSome = false := by
  rw [h.forward.innerScope?]
  rfl

/-- The keyword `struct` is not declared. -/
theorem KeywordAt.isDeclaration (h : s.KeywordAt d) : (s.symbol d).isDeclaration = false :=
  Bool.eq_false_iff.2 (not_isDeclaration h.undeclared)

namespace Tracks

variable (h : Tracks k n s s')
include h

section Lists

variable (names names' : List SymbolId)

theorem map_value_moved (id? : Option SymbolId) :
    ((id?.map (moved k)).map fun id => (s'.symbol id).value) =
      id?.map fun id => (s.symbol id).value := by
  rw [Option.map_map]
  exact Option.map_congr fun id _ => h.value id

theorem typeName? (hid : Matches k (s.symbol id) (s'.symbol (moved k id))) :
    (ofState names' s').typeName? (moved k id) = (ofState names s).typeName? id := by
  show (s'.symbol (moved k id)).declaredType?.map (fun type => (s'.symbol type).value) = _
  rw [hid.declaredType?, h.map_value_moved]
  rfl

theorem memberSummary (hid : Matches k (s.symbol id) (s'.symbol (moved k id))) :
    (ofState names' s').memberSummary (moved k id) = (ofState names s).memberSummary id := by
  have hlength : (s'.symbol (moved k id)).dimension?.map (fun length => (s'.symbol length).value) =
      (s.symbol id).dimension?.map fun length => (s.symbol length).value := by
    rw [hid.dimension?, h.map_value_moved]
  exact MemberSummary.ext hid.value (h.typeName? names names' hid) hlength

/-- Inside a struct, the same names are declared, in the same order. -/
theorem declared {c : ScopeId} (hc : c ≠ 0) : (ofState names' s').declared c =
    ((ofState names s).declared c).map (moved k) := by
  have hvalues : ((ofState names' s').scope c).definitions.values =
      ((ofState names s).scope c).definitions.values.map (moved k) := by
    show (s'.scopeAt c).definitions.entries.map Prod.snd =
      ((s.scopeAt c).definitions.entries.map Prod.snd).map (moved k)
    rw [h.order c hc, List.map_map, List.map_map]
    rfl
  rw [TranslationUnit.declared, hvalues, List.filter_map, TranslationUnit.declared]
  refine congrArg _ (List.filter_congr fun id hid => ?_)
  obtain ⟨name, hname⟩ := Dictionary.mem_values_iff.1 hid
  exact ((h.same c name fun hzero => absurd hzero hc).matching id hname).isDeclaration

/-- The same is told of the members of a struct. -/
theorem summary (hnested : s.Nested) (hd : Matches k (s.symbol d) (s'.symbol (moved k d))) :
    (ofState names' s').summary (moved k d) = (ofState names s).summary d := by
  have halias : (s'.symbol (moved k d)).alias?.map (fun id => (s'.symbol id).value) =
      (s.symbol d).alias?.map fun id => (s.symbol id).value := by
    rw [hd.alias?, h.map_value_moved]
  have hmembers : ((ofState names' s').members (moved k d)).map (ofState names' s').memberSummary =
      ((ofState names s).members d).map (ofState names s).memberSummary := by
    have hinner : ((ofState names' s').symbol (moved k d)).innerScope? =
      ((ofState names s).symbol d).innerScope? := hd.innerScope?
    rw [TranslationUnit.members, TranslationUnit.members, hinner]
    cases hbody : ((ofState names s).symbol d).innerScope? with
    | none => rfl
    | some c =>
      have hc : c ≠ 0 := Nat.ne_of_gt (hnested.body d c hbody).1
      show ((ofState names' s').declared c).map _ = ((ofState names s).declared c).map _
      rw [h.declared names names' hc, List.map_map]
      refine List.map_congr_left fun id hid => ?_
      obtain ⟨name, hname⟩ := (mem_declared_iff.1 hid).1
      have hsame := h.same c name fun hzero => absurd hzero hc
      exact h.memberSummary names names' (hsame.matching id hname)
  exact StructSummary.ext hd.value halias hmembers

theorem isStruct_ofState (hid : Matches k (s.symbol id) (s'.symbol (moved k id))) :
    (ofState names' s').isStruct (moved k id) = (ofState names s).isStruct id := by
  rw [TranslationUnit.isStruct, h.typeName? names names' hid, TranslationUnit.isStruct]

end Lists

/-! ### The same structs -/

/-- A name in the outermost scope stands for the same symbol in both readings, unless it stands for
something without a body. -/
theorem sameEntry (name : String) : SameEntry k s s' 0 name ∨
    (∀ id, (s.scopeAt 0).get? name = some id → (s.symbol id).isDeclaration = false ∨
      (s.symbol id).innerScope?.isSome = false) ∧
    ∀ id, (s'.scopeAt 0).get? name = some id → (s'.symbol id).isDeclaration = false ∨
      (s'.symbol id).innerScope?.isSome = false := by
  by_cases hn : name = n
  · subst hn
    rcases h.own with ⟨hsame, -⟩ | ⟨hput, hahead', hahead⟩
    · exact .inl hsame
    · refine .inr ⟨fun id hid => .inr (hahead id hid).innerScope?, fun id hid => ?_⟩
      cases hput.symm.trans hid
      exact .inr hahead'.innerScope?
  · by_cases hkeyword : name = structKeyword
    · subst hkeyword
      exact .inr ⟨fun id hid => .inl (h.keywords.left id hid).isDeclaration,
        fun id hid => .inl (h.keywords.right id hid).isDeclaration⟩
    · exact .inl (h.same 0 name fun _ => ⟨hn, hkeyword⟩)

theorem matches_of_mem_structs (hd : d ∈ (ofState names s).structs) :
    Matches k (s.symbol d) (s'.symbol (moved k d)) := by
  obtain ⟨⟨name, hname⟩, hdeclared, -, hbody, -⟩ := mem_structs_ofState.1 hd
  rcases h.sameEntry name with hsame | ⟨hnone, -⟩
  · exact hsame.matching d hname
  · rcases hnone d hname with hnot | hnot
    · cases hdeclared.symm.trans hnot
    · cases hbody.symm.trans hnot

/-- The structs of the second reading are those of the first. -/
theorem mem_structs_iff {d' : SymbolId} : d' ∈ (ofState names' s').structs ↔
    d' ∈ (ofState names s).structs.map (moved k) := by
  rw [List.mem_map]
  constructor
  · intro hd'
    obtain ⟨⟨name, hname⟩, hdeclared, halias, hbody, hstruct⟩ := mem_structs_ofState.1 hd'
    rcases h.sameEntry name with hsame | ⟨-, hnone⟩
    · rw [hsame.entry] at hname
      obtain ⟨d, hd, rfl⟩ := Option.map_eq_some_iff.1 hname
      have hmatches := hsame.matching d hd
      rw [hmatches.isDeclaration] at hdeclared
      rw [hmatches.isAlias] at halias
      rw [hmatches.innerScope?] at hbody
      rw [h.isStruct_ofState names names' hmatches] at hstruct
      exact ⟨d, mem_structs_ofState.2 ⟨⟨name, hd⟩, hdeclared, halias, hbody, hstruct⟩, rfl⟩
    -- in its own place `n` may be declared ahead, which makes no struct of the unit
    · rcases hnone d' hname with hnot | hnot
      · cases hdeclared.symm.trans hnot
      · cases hbody.symm.trans hnot
  · rintro ⟨d, hd, rfl⟩
    obtain ⟨⟨name, hname⟩, hdeclared, halias, hbody, hstruct⟩ := mem_structs_ofState.1 hd
    have hmatches := h.matches_of_mem_structs hd
    rcases h.sameEntry name with hsame | ⟨hnone, -⟩
    · refine mem_structs_ofState.2 ⟨⟨name, hsame.get?_moved hname⟩, ?_, ?_, ?_, ?_⟩
      · exact hmatches.isDeclaration.trans hdeclared
      · exact hmatches.isAlias.trans halias
      · rw [hmatches.innerScope?]
        exact hbody
      · exact (h.isStruct_ofState names names' hmatches).trans hstruct
    · rcases hnone d hname with hnot | hnot
      · cases hdeclared.symm.trans hnot
      · cases hbody.symm.trans hnot

/-- Both readings tell the same of the same structs. -/
theorem summaries (hnested : s.Nested) (hnodup : (ofState names s).structs.Nodup)
    (hnodup' : (ofState names' s').structs.Nodup) :
    (ofState names' s').summaries.Perm (ofState names s).summaries := by
  have hmoved := hnodup.map (moved_injective k)
  have hperm : (ofState names' s').structs.Perm ((ofState names s).structs.map (moved k)) :=
    (List.perm_ext_iff_of_nodup hnodup' hmoved).2 fun _ => h.mem_structs_iff
  have hmap := hperm.map (ofState names' s').summary
  rw [List.map_map] at hmap
  refine hmap.trans (.of_eq (List.map_congr_left fun d hd => ?_))
  exact h.summary names names' hnested (h.matches_of_mem_structs hd)

end Tracks

end State

end Parse

end CStruct
