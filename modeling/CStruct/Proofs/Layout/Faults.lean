import CStruct.Program
import CStruct.Proofs.Declared.Lengths
import CStruct.Proofs.Declared.Names
import CStruct.Proofs.Layout.Exact

/-!
# What keeps a source from being laid out

A source without errors can still have faults: a member that is a struct itself, a length that no
array can have, a member or a struct that is too large. `TranslationUnit.faults` lists them in the
order of the structs and of their members, by what was declared and without regard to how a layout
is made. The main statement is `Program.outcome_ofSource`: a source with errors is refused with
them, one with faults is refused with the first of them, and any other has its structs laid out.
-/

namespace CStruct

/-! ## Outcomes -/

/-- The first fault comes out, or something good if there is none. -/
def ComesTo {ε α : Type} (faults : List ε) (Good : α → Prop) : Except ε α → Prop
  | .ok a => faults = [] ∧ Good a
  | .error fault => faults.head? = some fault

namespace ComesTo

variable {ε α β : Type} {Good : α → Prop} {x : Except ε α} {faults faults' : List ε}

/-- What is looked at next is looked at only if nothing was wrong before. -/
theorem bind {Good' : β → Prop} {f : α → Except ε β} (hx : ComesTo faults Good x)
    (hf : ∀ a, Good a → ComesTo faults' Good' (f a)) :
    ComesTo (faults ++ faults') Good' (x >>= f) := by
  cases x with
  | error fault =>
    show (faults ++ faults').head? = some fault
    rw [List.head?_append, show faults.head? = some fault from hx]
    rfl
  | ok a =>
    obtain ⟨hnone, ha⟩ := hx
    rw [hnone]
    exact hf a ha

/-- The elements of a list are looked at in order. -/
theorem mapM {Good : α → β → Prop} {f : α → Except ε β} {faults : α → List ε} {as : List α}
    (h : ∀ a ∈ as, ComesTo (faults a) (Good a) (f a)) :
    ComesTo (as.flatMap faults) (List.Forall₂ Good as) (as.mapM f) := by
  induction as with
  | nil => exact ⟨rfl, .nil⟩
  | cons a as ih =>
    have hrest := ih fun b hb => h b (List.mem_cons_of_mem a hb)
    rw [List.flatMap_cons, List.mapM_cons]
    refine (h a List.mem_cons_self).bind fun b hb => ?_
    rw [← List.append_nil (as.flatMap faults)]
    exact hrest.bind fun bs hbs => ⟨rfl, .cons hb hbs⟩

theorem of_none {a : α} (ha : Good a) : ComesTo ([] : List ε) Good (.ok a) := ⟨rfl, ha⟩

theorem eq_cons {fault : ε} (h : ComesTo faults Good (.error fault)) :
    ∃ others, faults = fault :: others :=
  List.head?_eq_some_iff.1 h

end ComesTo

/-! ## Types and lengths -/

namespace PrimitiveType

theorem ofText?_keyword (type : PrimitiveType) : ofText? type.keyword = .ok type := by
  unfold ofText?
  cases hfound : all.find? (·.keyword == type.keyword) with
  | none =>
    have hself := List.find?_eq_none.1 hfound type (mem_all type)
    rw [beq_self_eq_true] at hself
    exact absurd rfl hself
  | some found =>
    have hfound := List.find?_some hfound
    rw [keyword_injective (eq_of_beq hfound)]

end PrimitiveType

/-- A numeral stands for a length if the number is positive and fits into the address space. -/
theorem readLength?_of_isNumeral {text : String} (h : Text.IsNumeral text) :
    readLength? text =
      if Text.decimalValue text.toList = 0 ∨ addressLimit ≤ Text.decimalValue text.toList then none
      else some (Text.decimalValue text.toList) := by
  obtain ⟨hne, hdigits⟩ := h
  have hdigits : ∀ c ∈ text.toList, c.isDigit = true := List.all_eq_true.1 hdigits
  -- a numeral has no sign
  have hsign : readLength? text = ((Text.readDecimal? text.toList).bind fit).filter (0 < ·) := by
    unfold readLength?
    dsimp only
    split
    · rename_i cs heq
      rw [heq] at hdigits
      exact absurd (hdigits '+' List.mem_cons_self) (by decide)
    · rfl
  have hread : Text.readDecimal? text.toList = some (Text.decimalValue text.toList) :=
    Text.readDecimal?_eq_some_iff.2 ⟨fun hnil => hne (String.toList_eq_nil_iff.1 hnil), hdigits, rfl⟩
  rw [hsign, hread, Option.bind_some]
  by_cases hlimit : addressLimit ≤ Text.decimalValue text.toList
  · rw [if_pos (.inr hlimit), fit_eq_none_iff.2 hlimit]
    rfl
  · rw [fit_eq_some_iff.2 ⟨Nat.lt_of_not_le hlimit, rfl⟩]
    by_cases hzero : Text.decimalValue text.toList = 0
    · rw [if_pos (.inl hzero), hzero]
      rfl
    · rw [if_neg (not_or_intro hzero hlimit)]
      have hpos : 0 < Text.decimalValue text.toList := Nat.pos_of_ne_zero hzero
      rw [Option.filter_some, if_pos (decide_eq_true hpos)]

namespace TranslationUnit

open SymbolTable Parse Parse.State

/-! ## Faults -/

/-- Whether a name was declared by a struct statement: as a struct, ahead of one or as its typedef
name. -/
def isDeclaredByStruct (u : TranslationUnit) (id : SymbolId) : Bool :=
  (u.symbol id).declaredType?.any fun keyword =>
    (u.symbol keyword).kind == .statement && (u.symbol keyword).role.std == some .struct

/-- The primitive type that a name was declared with. -/
def type? (u : TranslationUnit) (id : SymbolId) : Option PrimitiveType :=
  PrimitiveType.all.find? fun type => u.typeName? id == some type.keyword

/-- The number that stands for the length of an array. -/
def length? (u : TranslationUnit) (id : SymbolId) : Option Nat :=
  (u.symbol id).dimension?.map fun x => Text.decimalValue (u.symbol x).value.toList

/-- What a member takes of a struct, however much that is. -/
def extent (u : TranslationUnit) (o : LayoutOptions) (id : SymbolId) : Extent where
  size := (u.type? id).elim 0 (·.size o.dataModel) * (u.length? id).getD 1
  alignment :=
    match o.packing with
    | .natural => (u.type? id).elim 1 (·.alignment o.dataModel)
    | .packed => 1

/-- What is wrong with the type of a member. -/
def typeFaults (u : TranslationUnit) (id : SymbolId) : List ModelError :=
  if u.isDeclaredByStruct id then [.unknownType (u.symbol id).value structKeyword] else []

/-- What is wrong with the length of an array. -/
def lengthFaults (u : TranslationUnit) (id : SymbolId) : List ModelError :=
  match (u.symbol id).dimension? with
  | none => []
  | some x =>
    let length := Text.decimalValue (u.symbol x).value.toList
    if length = 0 ∨ addressLimit ≤ length then
      [.invalidDimension (u.symbol id).value (u.symbol x).value]
    else []

/-- What is wrong with a number of bytes that `id` takes. -/
def sizeFaults (u : TranslationUnit) (id : SymbolId) (size : Nat) : List ModelError :=
  if addressLimit ≤ size then [.layoutOverflow (u.symbol id).value] else []

/-- What is wrong with a member. -/
def memberFaults (u : TranslationUnit) (o : LayoutOptions) (id : SymbolId) : List ModelError :=
  u.typeFaults id ++ (u.lengthFaults id ++ u.sizeFaults id (u.extent o id).size)

/-- What is wrong with the members of a struct, and with the struct as a whole. -/
def structFaults (u : TranslationUnit) (o : LayoutOptions) (id : SymbolId) : List ModelError :=
  (u.members id).flatMap (u.memberFaults o) ++
    u.sizeFaults id (Layout.exactSize ((u.members id).map (u.extent o)))

/-- What is wrong with the structs of a source. -/
def faults (u : TranslationUnit) (o : LayoutOptions) : List ModelError :=
  u.structs.flatMap (u.structFaults o)

/-! ## What a layout says of a source -/

/-- The member is the one that was declared with this symbol. -/
structure IsField (u : TranslationUnit) (o : LayoutOptions) (id : SymbolId) (f : Field) : Prop where
  name : f.name = (u.symbol id).value
  type : u.typeName? id = some f.type.keyword
  length : f.arrayLength? = u.length? id
  span : f.span = (u.symbol id).span
  description : f.description = (u.description? id).getD ""
  extent : f.extent o = u.extent o id

/-- The struct is the one that was declared with this symbol, laid out. -/
structure IsStruct (u : TranslationUnit) (o : LayoutOptions) (id : SymbolId) (s : Struct) :
    Prop where
  name : s.name = (u.symbol id).value
  typedefName : s.alias? = (u.symbol id).alias?.map fun a => (u.symbol a).value
  span : s.span = (u.symbol id).span
  description : s.description = (u.description? id).getD ""
  members : List.Forall₂ (u.IsField o) (u.members id) (s.members.map Member.toField)
  layout : Layout.ofFields? o (s.members.map Member.toField) = some s.toLayout
  size : s.size = Layout.exactSize ((u.members id).map (u.extent o))

/-! ## Members -/

/-- Names were declared with `struct` or with the keyword of a type, and lengths are numerals. -/
structure Regular (u : TranslationUnit) : Prop where
  typed : ∀ id, (u.symbol id).isDeclaration = true →
    u.isDeclaredByStruct id = true ∧ u.typeName? id = some structKeyword ∨
      u.isDeclaredByStruct id = false ∧ ∃ type : PrimitiveType, u.typeName? id = some type.keyword
  numeral : ∀ id x, (u.symbol id).dimension? = some x → Text.IsNumeral (u.symbol x).value

theorem type?_eq_some {u : TranslationUnit} {id : SymbolId} {type : PrimitiveType}
    (h : u.typeName? id = some type.keyword) : u.type? id = some type := by
  unfold type?
  cases hfound : PrimitiveType.all.find? fun type => u.typeName? id == some type.keyword with
  | none =>
    have hself := List.find?_eq_none.1 hfound type (PrimitiveType.mem_all type)
    rw [h, beq_self_eq_true] at hself
    exact absurd rfl hself
  | some found =>
    have hfound := List.find?_some hfound
    rw [h] at hfound
    rw [PrimitiveType.keyword_injective (Option.some.inj (eq_of_beq hfound))]

section Members

variable {u : TranslationUnit} (hu : u.Regular) {o : LayoutOptions} {id : SymbolId}
include hu

theorem memberType_comesTo (hid : (u.symbol id).isDeclaration = true) :
    ComesTo (u.typeFaults id) (fun type => u.typeName? id = some type.keyword)
      (u.memberType id) := by
  unfold memberType typeFaults
  rcases hu.typed id hid with ⟨hstruct, hname⟩ | ⟨hstruct, type, hname⟩
  · rw [if_pos hstruct, hname]
    have hnone : PrimitiveType.ofText? structKeyword = .error ⟨.primitiveType, structKeyword⟩ := by
      decide
    dsimp only [Option.getD_some]
    rw [hnone]
    rfl
  · rw [if_neg (by rw [hstruct]; nofun), hname]
    dsimp only [Option.getD_some]
    rw [PrimitiveType.ofText?_keyword]
    exact .of_none rfl

theorem memberLength?_comesTo :
    ComesTo (u.lengthFaults id) (fun length? => length? = u.length? id) (u.memberLength? id) := by
  unfold memberLength? lengthFaults length?
  cases hx : (u.symbol id).dimension? with
  | none => exact .of_none rfl
  | some x =>
    dsimp only
    rw [readLength?_of_isNumeral (hu.numeral id x hx)]
    split
    · rfl
    · exact .of_none rfl

/-- A member is refused with its first fault. -/
theorem field_comesTo (hid : (u.symbol id).isDeclaration = true) :
    ComesTo (u.memberFaults o id) (u.IsField o id) (u.field o.dataModel id) := by
  unfold field memberFaults
  refine (memberType_comesTo hu hid).bind fun type htype => ?_
  refine (memberLength?_comesTo hu).bind fun length? hlength => ?_
  have hsize : (u.extent o id).size = type.size o.dataModel * length?.getD 1 := by
    rw [extent, type?_eq_some htype, hlength]
    rfl
  unfold sizeFaults
  rw [hsize]
  by_cases hlimit : addressLimit ≤ type.size o.dataModel * length?.getD 1
  · rw [if_pos hlimit, fit_eq_none_iff.2 hlimit]
    rfl
  · rw [if_neg hlimit, fit_eq_some_iff.2 ⟨Nat.lt_of_not_le hlimit, rfl⟩]
    refine .of_none ⟨rfl, htype, hlength, rfl, rfl, ?_⟩
    unfold extent
    rw [type?_eq_some htype, ← hlength]
    rfl

end Members

/-! ## Structs -/

/-- The members of a struct are declared names. -/
theorem isDeclaration_of_mem_members {u : TranslationUnit} {id member : SymbolId}
    (h : member ∈ u.members id) : (u.symbol member).isDeclaration = true := by
  unfold members at h
  split at h
  · exact (mem_declared_iff.1 h).2
  · cases h

theorem map_extent {u : TranslationUnit} {o : LayoutOptions} {ids : List SymbolId}
    {fs : List Field} (h : List.Forall₂ (u.IsField o) ids fs) :
    fs.map (Field.extent o) = ids.map (u.extent o) := by
  induction h with
  | nil => rfl
  | cons hfield _ ih => rw [List.map_cons, List.map_cons, hfield.extent, ih]

/-- A struct is refused with the first fault of its members, or for its size. -/
theorem struct_comesTo {u : TranslationUnit} (hu : u.Regular) (o : LayoutOptions)
    (id : SymbolId) : ComesTo (u.structFaults o id) (u.IsStruct o id) (u.struct o id) := by
  unfold struct structFaults
  have hmembers : ∀ member ∈ u.members id, ComesTo (u.memberFaults o member)
      (u.IsField o member) (u.field o.dataModel member) :=
    fun member hmem => field_comesTo hu (isDeclaration_of_mem_members hmem)
  refine (ComesTo.mapM hmembers).bind fun fs hfs => ?_
  have hextents := map_extent hfs
  unfold sizeFaults
  rcases Layout.ofFields?_cases o fs with ⟨l, hl, hfields, hsize, -, hlt⟩ | ⟨hnone, hle⟩
  · rw [hextents] at hsize hlt
    rw [if_neg (Nat.not_le_of_lt hlt), hl]
    refine .of_none ⟨rfl, rfl, rfl, rfl, ?_, ?_, hsize⟩
    · rw [hfields]
      exact hfs
    · rw [hfields]
      exact hl
  · rw [hextents] at hle
    rw [if_pos hle, hnone]
    rfl

/-! ## Sources -/

/-- A name was declared with the keyword of a statement. -/
theorem exists_keyword {t : SymbolTable} {lexemes : List Lexeme} {endPosition : Position}
    {u : TranslationUnit} (h : ofLexemes? t lexemes endPosition = some u) {id : SymbolId}
    (hid : (u.symbol id).isDeclaration = true) :
    ∃ keyword std, (u.symbol id).declaredType? = some keyword ∧
      (u.symbol keyword).kind = .statement ∧ (u.symbol keyword).role.std = some std := by
  obtain ⟨names, s, -, rfl, -, hc, -⟩ := brings_ofLexemes h
  obtain ⟨k, std, x, hx⟩ := (hc.made (not_undeclared_of_isDeclaration hid)).isDeclared
  exact ⟨x.declaredType, std, hx.declaredType?_eq, hx.keyword.kind, hx.keyword.std⟩

/-- A source without errors is regular. -/
theorem regular_ofSource {source : String} (hclean : (ofSource source).hasErrors = false) :
    (ofSource source).Regular := by
  refine ⟨fun id hid => ?_, fun id x => isNumeral_of_dimension?_ofSource hclean⟩
  have h := ofLexemes?_ofSource source
  obtain ⟨keyword, std, htype, hkind, hstd⟩ := exists_keyword h hid
  obtain ⟨name, p, hname, hp, hpstd⟩ := exists_get?_typeName h htype hstd
  have hdeclared : (ofSource source).isDeclaredByStruct id = (std == .struct) := by
    unfold isDeclaredByStruct
    rw [htype, Option.any_some, hkind, hstd]
    cases std <;> rfl
  cases std with
  | struct =>
    rw [eq_struct_of_get? hp hpstd] at hname
    exact .inl ⟨hdeclared, hname⟩
  | member =>
    obtain ⟨type, rfl⟩ := exists_keyword_of_get? hp hpstd
    exact .inr ⟨hdeclared, type, hname⟩

end TranslationUnit

namespace Program

open TranslationUnit

/-- A translation unit is refused with its first fault. -/
theorem ofUnit_comesTo {u : TranslationUnit} (hu : u.Regular) (o : LayoutOptions) :
    ComesTo (u.faults o) (fun p => List.Forall₂ (u.IsStruct o) u.structs p.structs)
      (ofUnit u o) := by
  unfold ofUnit faults
  rw [← List.append_nil (u.structs.flatMap (u.structFaults o))]
  exact (ComesTo.mapM fun id _ => struct_comesTo hu o id).bind fun structs hstructs =>
    .of_none hstructs

/-- Reading a source always gives a translation unit. A source with errors is refused with all of
them, and one without with its first fault. A source that has neither gives its structs, each with
its members, in the order in which they were declared. -/
theorem outcome_ofSource (source : String) (o : LayoutOptions) :
    let u := TranslationUnit.ofSource source
    TranslationUnit.ofLexer? SymbolTable.cStructs (Lexicon.lexer source) = .ok (some u) ∧
    match u.diagnostics.toList.filter Diagnostic.isError, u.faults o with
    | [], [] =>
      ∃ p, ofSource source o = .ok p ∧ List.Forall₂ (u.IsStruct o) u.structs p.structs
    | [], fault :: _ => ofSource source o = .error fault
    | error :: errors, _ => ofSource source o = .error (.parse (error :: errors)) := by
  refine ⟨ofLexer?_lexer source, ?_⟩
  have hregular := @regular_ofSource source
  unfold ofSource
  generalize TranslationUnit.ofSource source = u at hregular
  dsimp only
  cases herrors : u.diagnostics.toList.filter Diagnostic.isError with
  | cons error errors => rfl
  | nil =>
    have hclean : u.hasErrors = false := List.any_eq_false.2 (List.filter_eq_nil_iff.1 herrors)
    have houtcome := ofUnit_comesTo (hregular hclean) o
    cases hp : ofUnit u o with
    | error fault =>
      rw [hp] at houtcome
      obtain ⟨others, hfaults⟩ := houtcome.eq_cons
      rw [hfaults]
    | ok p =>
      rw [hp] at houtcome
      obtain ⟨hfaults, hstructs⟩ := houtcome
      rw [hfaults]
      exact ⟨p, rfl, hstructs⟩

/-- Of several faults, the first member of the first struct counts. -/
example :
    (TranslationUnit.ofSource
      "struct a \x7b int x[00]; struct \x7b char y; \x7d b; \x7d;").faults {} =
      [.invalidDimension "x" "00", .unknownType "b" "struct"] := by
  decide +kernel

end Program

end CStruct
